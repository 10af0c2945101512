import OrderPack.Proofs.Record.Packing
import OrderPack.Record.Unpack

/-! A packed record reads back. Each field is read from the front of whatever bytes
follow it, so the fields of a record are read one after another just as they were
written; only bytes without a length need the end of the record to tell where they end,
and they stand there. What is read is the value as the field keeps it. -/
namespace OrderPack

namespace Reader

theorem takeBytes_append {front : List UInt8} (offset : Nat) (rest : List UInt8)
    (length : front.length = count) :
    takeBytes ⟨offset, front ++ rest⟩ count = (.ok front, ⟨offset + count, rest⟩) := by
  subst length
  rw [takeBytes, take_append]

/-- A single byte gives back the number written into it. -/
theorem byte_append (offset : Nat) (small : n < 256) (rest : List UInt8) (value : Nat → Value) :
    byte ⟨offset, Varint.bigEndian 1 n ++ rest⟩ value = (.ok (value n), ⟨offset + 1, rest⟩) := by
  rw [byte, takeBytes_append offset rest (Varint.length_bigEndian 1 n)]
  simp only [Except.map, Varint.fromBigEndian_bigEndian (show n < Varint.span 1 from small)]

/-- Text in a fixed width loses what was cut off, and all from its first NUL on: a
reader cannot tell that NUL from the zeros behind the text. -/
theorem fixedText_append (offset width : Nat) (chars : List Char) (rest : List UInt8) :
    fixedText ⟨offset, Field.fixedText width chars ++ rest⟩ width =
      (.ok (.text (String.ofList (Text.untilNul (Text.takeFitting width chars)))),
        ⟨offset + width, rest⟩) := by
  rw [fixedText, takeBytes_append offset rest (Field.length_fixedText width chars)]
  simp only [Field.fixedText, Field.zeros, Field.beforeNul, Text.takeWhile_utf8_append, text,
    Text.ofBytes_utf8]

theorem terminatedText_append (offset : Nat) (content : String) (rest : List UInt8) :
    terminatedText ⟨offset, Field.terminated (Text.bytes content) ++ rest⟩ =
      (.ok (.text (String.ofList (Text.untilNul content.toList))),
        ⟨offset + (Field.terminated (Text.bytes content)).length, rest⟩) := by
  have spelt : Field.beforeNul (Text.bytes content) =
      Text.utf8 (Text.untilNul content.toList) := Field.beforeNul_utf8 content.toList
  have again : Field.beforeNul (Field.terminated (Text.bytes content) ++ rest) =
      Field.beforeNul (Text.bytes content) := by
    have apart : ∀ byte ∈ Field.beforeNul (Text.bytes content), (byte != 0) = true :=
      fun _ found => bne_iff_ne.mpr (Field.ne_zero_of_mem_beforeNul found)
    rw [Field.terminated, List.append_assoc]
    exact (List.takeWhile_append_of_pos apart).trans (List.append_nil _)
  have length := Field.length_terminated (Text.bytes content)
  have closed : (Field.beforeNul (Text.bytes content)).length <
      (Field.terminated (Text.bytes content) ++ rest).length := by
    rw [List.length_append, length]
    omega
  simp only [terminatedText, again]
  rw [if_pos closed, ← length, List.drop_left, Nat.add_assoc, ← length, text, spelt,
    Text.ofBytes_utf8]

theorem sizedBytes_append (offset : Nat) (content rest : List UInt8)
    (short : content.length < UInt64.size) :
    sizedBytes ⟨offset, Varint.encodeNat content.length ++ content ++ rest⟩ =
      (.ok (.bytes content),
        ⟨offset + (Varint.encodeNat content.length ++ content).length, rest⟩) := by
  rw [sizedBytes, List.append_assoc, Varint.decodeNat_encodeNat offset _ short]
  simp only
  rw [takeBytes_append _ rest rfl, List.length_append, Nat.add_assoc]
  rfl

end Reader

namespace Field

/-- Text kept in a fixed width: the longest run of whole characters that fits, cut
before its first NUL. -/
def KeepsFixed (width : Nat) (given read : Value) : Prop :=
  ∃ content kept, given = .text content ∧ Text.LongestFitting width content.toList kept ∧
    read = .text (String.ofList (Text.untilNul kept))

/-- What is read where a value was written. Numbers are read as they were given. -/
def Keeps (field : Field) (given read : Value) : Prop :=
  match field.tag with
  | .padding => False
  | .fixedText => KeepsFixed field.size given read
  | .text =>
    if field.sized then KeepsFixed field.size given read
    else ∃ content, given = .text content ∧
      read = .text (String.ofList (Text.untilNul content.toList))
  | .raw | .sizedRaw => ∃ content, given = .bytes content ∧ read = .bytes (field.image content)
  | .bits | .scalar _ => read = given

/-- The bytes of a value are read from the front of whatever follows them, and no more
than these are taken. -/
theorem read_spelt {field : Field} {value : Value} {front : List UInt8}
    (formed : field.WellFormed) (holds : field.holdsValue = true)
    (spelt : field.Spells value front) (short : front.length ≤ Record.maxLength)
    (offset : Nat) (rest : List UInt8) (closed : field.RunsToEnd → rest = []) :
    ∃ read, field.read ⟨offset, front ++ rest⟩ =
        (.ok read, ⟨offset + front.length, rest⟩) ∧ field.Keeps value read := by
  obtain ⟨tag, size, sized⟩ := field
  cases tag with
  | padding => cases holds
  | fixedText =>
    obtain ⟨content, rfl, rfl⟩ := spelt
    refine ⟨_, ?_, content, _, rfl, Text.takeFitting_longestFitting size _, rfl⟩
    rw [length_fixedText]
    exact Reader.fixedText_append offset size _ rest
  | text =>
    obtain ⟨content, rfl, rfl⟩ := spelt
    cases sized with
    | true =>
      refine ⟨_, ?_, content, _, rfl, Text.takeFitting_longestFitting size _, rfl⟩
      simp only [if_true, length_fixedText]
      exact Reader.fixedText_append offset size _ rest
    | false =>
      refine ⟨_, ?_, content, rfl, rfl⟩
      simp only [read, Bool.false_eq_true, if_false]
      exact Reader.terminatedText_append offset content rest
  | raw =>
    obtain ⟨content, rfl, rfl⟩ := spelt
    refine ⟨.bytes (image ⟨.raw, size, sized⟩ content), ?_, content, rfl, rfl⟩
    have count : (if sized then size else (image ⟨.raw, size, sized⟩ content ++ rest).length) =
        (image ⟨.raw, size, sized⟩ content).length := by
      cases sized with
      | true =>
        have stored : (⟨.raw, size, true⟩ : Field).sized = true := rfl
        exact (length_image stored content).symm
      | false =>
        rw [closed ⟨rfl, rfl⟩, List.append_nil]
        rfl
    simp only [read, count]
    rw [Reader.takeBytes_append offset rest rfl]
    rfl
  | sizedRaw =>
    obtain ⟨content, rfl, rfl⟩ := spelt
    refine ⟨.bytes (image ⟨.sizedRaw, size, sized⟩ content), ?_, content, rfl, rfl⟩
    rw [List.length_append] at short
    exact Reader.sizedBytes_append offset _ rest
      (Record.lt_word_of_short (Nat.le_of_add_left_le short))
  | bits =>
    obtain ⟨n, rfl, small, rfl⟩ := spelt
    have byte : n.toNat < 256 := Nat.lt_of_lt_of_le small (Nat.pow_le_pow_right (by decide) formed.2)
    refine ⟨_, Reader.byte_append offset byte rest fun n => .uint64 (UInt64.ofNat n), ?_⟩
    exact congrArg Value.uint64 UInt64.ofNat_toNat
  | scalar scalar =>
    cases scalar with
    | uint8 =>
      obtain ⟨n, rfl, small, rfl⟩ := spelt
      refine ⟨_, Reader.byte_append offset small rest fun n => .uint64 (UInt64.ofNat n), ?_⟩
      exact congrArg Value.uint64 UInt64.ofNat_toNat
    | int8 =>
      obtain ⟨n, rfl, ⟨low, high⟩, rfl⟩ := spelt
      replace low : -128 ≤ n.toInt := low
      replace high : n.toInt < 128 := high
      have byte : (n.toInt + 128).toNat < 256 := by omega
      refine ⟨_, Reader.byte_append offset byte rest fun n => .int64 (Int64.ofInt (n - 128)), ?_⟩
      have back : ((n.toInt + 128).toNat : Int) - 128 = n.toInt := by omega
      exact congrArg Value.int64 ((congrArg Int64.ofInt back).trans (Int64.ofInt_toInt n))
    | int width =>
      obtain ⟨n, rfl, _, rfl⟩ := spelt
      refine ⟨.int64 n, ?_, rfl⟩
      simp only [read, Varint.decodeSigned_encodeSigned]
    | uint width =>
      obtain ⟨n, rfl, _, rfl⟩ := spelt
      refine ⟨.uint64 n, ?_, rfl⟩
      simp only [read, Varint.decodeUnsigned_encodeUnsigned]
    | recordId =>
      obtain ⟨n, rfl, rfl⟩ := spelt
      refine ⟨.uint64 n, ?_, rfl⟩
      rw [read, Varint.length_bigEndian]
      simp only [Reader.takeBytes_append offset rest (Varint.length_bigEndian 8 n.toNat),
        Except.map, Varint.fromBigEndian_bigEndian (Varint.toNat_lt_span n), UInt64.ofNat_toNat]

end Field

/-- Values read field by field. Values given beyond the last field are not read. -/
inductive Kept : List Field → List Value → List Value → Prop where
  | ended : Kept [] given []
  | value {field : Field} {value read : Value} (keeps : field.Keeps value read)
      (later : Kept fields given reads) :
      Kept (field :: fields) (value :: given) (read :: reads)

namespace Kept

theorem length_eq (kept : Kept fields given reads) : reads.length = fields.length := by
  induction kept with
  | ended => rfl
  | value _ _ ih => rw [List.length_cons, List.length_cons, ih]

theorem at_place (kept : Kept fields given reads) {place : Nat} {field : Field}
    (stands : fields[place]? = some field) :
    ∃ value read, given[place]? = some value ∧ reads[place]? = some read ∧
      field.Keeps value read := by
  induction kept generalizing place with
  | ended => cases stands
  | value keeps _ ih =>
    cases place with
    | zero =>
      cases stands
      exact ⟨_, _, rfl, rfl, keeps⟩
    | succ place => exact ih stands

end Kept

namespace Record

theorem Reading.step_padding {field : Field} (skips : field.holdsValue = false)
    (offset place : Nat) (found : List Value) (rest : List UInt8) :
    step ⟨⟨offset, Field.zeros field.size ++ rest⟩, place, found⟩ field =
      .ok ⟨⟨offset + field.size, rest⟩, place + 1, found⟩ := by
  have taken := Reader.take_append offset (Field.zeros field.size) rest
  rw [Field.length_zeros] at taken
  rw [step, skips, if_neg Bool.false_ne_true]
  simp only [taken]

theorem Reading.step_value {field : Field} {reader after : Reader} {value : Value}
    (holds : field.holdsValue = true) (read : field.read reader = (.ok value, after))
    (place : Nat) (found : List Value) :
    step ⟨reader, place, found⟩ field = .ok ⟨after, place + 1, found ++ [value]⟩ := by
  rw [step, if_pos holds]
  simp only [read]

/-- A record is read through to its end, one value for each field that holds one. -/
theorem Reading.foldlM_of_packed {fields : List Field} {values : List Value} {bytes : List UInt8}
    (packed : Packed fields values bytes) (arranged : Arranged fields)
    (short : bytes.length ≤ maxLength) (offset place : Nat) (found : List Value) :
    ∃ last read, fields.foldlM step ⟨⟨offset, bytes⟩, place, found⟩ = .ok last ∧
      last.values = found ++ read ∧ Kept (fields.filter Field.holdsValue) values read := by
  induction packed generalizing offset place found with
  | ended => exact ⟨_, [], rfl, (List.append_nil found).symm, .ended⟩
  | @padding fields values bytes field skips later ih =>
    rw [List.length_append] at short
    obtain ⟨last, read, passed, all, kept⟩ :=
      ih arranged.2.2 (by omega) (offset + field.size) (place + 1) found
    refine ⟨last, read, ?_, all, ?_⟩
    · rw [List.foldlM_cons, step_padding skips]
      exact passed
    · rwa [List.filter_cons_of_neg (Bool.eq_false_iff.mp skips)]
  | @value fields values bytes field value front holds spelt later ih =>
    obtain ⟨formed, ends, arranged⟩ := arranged
    rw [List.length_append] at short
    obtain ⟨value, read, keeps⟩ := Field.read_spelt formed holds spelt (by omega) offset bytes
      fun toEnd => later.nothing_behind (ends toEnd)
    obtain ⟨last, reads, passed, all, kept⟩ :=
      ih arranged (by omega) (offset + front.length) (place + 1) (found ++ [value])
    refine ⟨last, value :: reads, ?_, ?_, ?_⟩
    · rw [List.foldlM_cons, step_value holds read]
      exact passed
    · rw [all, List.append_assoc, List.singleton_append]
    · rw [List.filter_cons_of_pos holds]
      exact .value keeps kept

/-- Whatever packs reads back: one value for each field that holds one, and each of them
the value given for that field as the field keeps it. -/
theorem unpack_pack {descriptor : String} {values : List Value} {buffer : List UInt8}
    (packs : pack descriptor values = .ok buffer) :
    ∃ fields read, Descriptor.fields descriptor = .ok fields ∧
      unpack descriptor buffer = .ok read ∧
      read.length = (fields.filter Field.holdsValue).length ∧
      ∀ (place : Nat) (field : Field), (fields.filter Field.holdsValue)[place]? = some field →
        ∃ given kept, values[place]? = some given ∧ read[place]? = some kept ∧
          field.Keeps given kept := by
  obtain ⟨fields, read, packed, nonempty, short⟩ := pack_eq_ok_iff.mp packs
  obtain ⟨layout, opened, sound, rfl⟩ := Descriptor.fields_eq_ok_iff.mp read
  obtain ⟨last, values, passed, all, kept⟩ :=
    Reading.foldlM_of_packed packed (Descriptor.fields_arranged read) short 0 0 []
  have whole : Reading.run layout buffer = .ok last :=
    Layout.foldFields_eq_ok_iff.mpr ⟨sound, passed⟩
  have started : openRecord descriptor buffer = .ok layout := by
    rw [openRecord, List.isEmpty_eq_false_iff.mpr nonempty, if_neg Bool.false_ne_true, opened]
    rfl
  have unpacked : unpack descriptor buffer = .ok values := by
    rw [List.nil_append] at all
    rw [unpack, started]
    simp only [whole, Except.map, all]
  exact ⟨layout.leading, values, read, unpacked, kept.length_eq, fun _ _ => kept.at_place⟩

/-- Text that is cut, text with a NUL in it, padding, bytes filled up, and a value too
many. -/
theorem unpack_pack_mixed :
    pack ".4sS2xbqu3uu" [.text "caféine", .text "a\x00b", .int64 (-3), .int64 (-8257),
        .bytes [7, 0], .bytes [1], .bytes [5, 0], .uint64 9] =
      .ok [99, 97, 102, 0, 97, 0, 0, 0, 125, 22, 223, 191, 130, 7, 0, 1, 0, 0, 5, 0] ∧
    ∃ fields read, Descriptor.fields ".4sS2xbqu3uu" = .ok fields ∧
      unpack ".4sS2xbqu3uu"
        [99, 97, 102, 0, 97, 0, 0, 0, 125, 22, 223, 191, 130, 7, 0, 1, 0, 0, 5, 0] = .ok read ∧
      read.length = (fields.filter Field.holdsValue).length ∧
      ∀ (place : Nat) (field : Field), (fields.filter Field.holdsValue)[place]? = some field →
        ∃ given kept, [Value.text "caféine", .text "a\x00b", .int64 (-3), .int64 (-8257),
            .bytes [7, 0], .bytes [1], .bytes [5, 0], .uint64 9][place]? = some given ∧
          read[place]? = some kept ∧ field.Keeps given kept :=
  ⟨by with_unfolding_all rfl, unpack_pack (by with_unfolding_all rfl)⟩

example : unpack ".4sS2xbqu3uu"
      [99, 97, 102, 0, 97, 0, 0, 0, 125, 22, 223, 191, 130, 7, 0, 1, 0, 0, 5, 0] =
    .ok [.text "caf", .text "a", .int64 (-3), .int64 (-8257), .bytes [7, 0], .bytes [1, 0, 0],
      .bytes [5, 0]] := by
  with_unfolding_all rfl

end Record

end OrderPack
