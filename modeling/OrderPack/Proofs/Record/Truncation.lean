import OrderPack.Proofs.Descriptor.Ending
import OrderPack.Proofs.Record.Repacking
import OrderPack.Proofs.Varint.Truncation

/-! A record that is cut short. Every field tells from its own first bytes how many it
needs, and finds out that they are missing before it looks at what they say. So the first
field that does not end by the cut is the one that fails, and it fails for want of input
whatever the cut has left of it. Only bytes that run to the end of the buffer cannot tell:
they are read as far as they go. -/
namespace OrderPack

namespace Reader

/-- The field could not be read for want of input. -/
def RanShort (answer : Except ReadError α × Reader) : Prop :=
  ∃ cause left, answer = (.error cause, left) ∧ cause.report.kind = .truncatedInput

theorem RanShort.map {read : Except ReadError α × Reader} (short : RanShort read)
    (make : α → β) : RanShort (read.1.map make, read.2) := by
  obtain ⟨cause, left, rfl, kind⟩ := short
  exact ⟨cause, left, rfl, kind⟩

theorem takeBytes_short {reader : Reader} (short : reader.rest.length < count) :
    RanShort (reader.takeBytes count) := by
  refine ⟨.shortage ⟨reader.offset, count - reader.rest.length⟩, reader, ?_, rfl⟩
  rw [takeBytes, take, if_neg (Nat.not_le.mpr short)]

theorem takeBytes_map_short {reader : Reader} (short : reader.rest.length < count)
    (make : List UInt8 → β) :
    RanShort (let (answer, left) := reader.takeBytes count; (answer.map make, left)) :=
  (takeBytes_short short).map make

theorem fixedText_short {reader : Reader} (short : reader.rest.length < width) :
    RanShort (reader.fixedText width) := by
  obtain ⟨cause, left, ran, kind⟩ := takeBytes_short short
  rw [fixedText, ran]
  exact ⟨cause, left, rfl, kind⟩

/-- Text without its NUL is not looked at. -/
theorem terminatedText_short {reader : Reader} (bare : ∀ byte ∈ reader.rest, byte ≠ 0) :
    RanShort reader.terminatedText := by
  have all : Field.beforeNul reader.rest = reader.rest := by
    apply List.takeWhile_eq_self_iff.mpr
    intro byte found
    exact bne_iff_ne.mpr (bare byte found)
  refine ⟨.unterminated reader.offset, reader, ?_, rfl⟩
  simp only [terminatedText, all]
  rw [if_neg (Nat.lt_irrefl _)]

/-- What a number of variable length is read as, if it can be read. -/
def number (reader : Reader) (make : α → Value) :
    Except Varint.Error (α × Reader) → Except ReadError Value × Reader
  | .ok (n, after) => (.ok (make n), after)
  | .error cause => (.error (.varint cause), reader)

theorem number_starved {decoded : Except Varint.Error (α × Reader)}
    (starved : Varint.Starved decoded) (reader : Reader) (make : α → Value) :
    RanShort (reader.number make decoded) := by
  obtain ⟨lack, rfl⟩ := starved
  exact ⟨.varint (.truncated lack), reader, rfl, rfl⟩

/-- Where bytes are missing for the length, the bytes behind it cannot be read. -/
theorem sizedBytes_starved {reader : Reader} (starved : Varint.Starved (Varint.decodeNat reader)) :
    RanShort reader.sizedBytes := by
  obtain ⟨lack, missing⟩ := starved
  refine ⟨.varint (.truncated lack), reader, ?_, rfl⟩
  rw [sizedBytes, missing]

/-- Bytes behind their length are cut in their length or behind it. -/
theorem sizedBytes_short (offset : Nat) {content : List UInt8}
    (word : content.length < UInt64.size)
    (inside : cut < (Varint.encodeNat content.length ++ content).length) :
    RanShort (sizedBytes ⟨offset, (Varint.encodeNat content.length ++ content).take cut⟩) := by
  by_cases early : cut < (Varint.encodeNat content.length).length
  · rw [List.take_append_of_le_length (Nat.le_of_lt early)]
    exact sizedBytes_starved (Varint.decodeNat_take offset word early)
  · rw [List.length_append] at inside
    have passed : (Varint.encodeNat content.length).take cut = Varint.encodeNat content.length :=
      List.take_of_length_le (Nat.le_of_not_lt early)
    rw [List.take_append, passed, sizedBytes, Varint.decodeNat_encodeNat offset _ word]
    apply takeBytes_map_short
    simp only [List.length_take]
    omega

end Reader

namespace Field
open Reader

theorem read_int (width : IntWidth) (size : Nat) (sized : Bool) (reader : Reader) :
    read ⟨.scalar (.int width), size, sized⟩ reader =
      reader.number .int64 (Varint.decodeSigned reader) := by
  simp only [read]
  cases Varint.decodeSigned reader <;> rfl

theorem read_uint (width : IntWidth) (size : Nat) (sized : Bool) (reader : Reader) :
    read ⟨.scalar (.uint width), size, sized⟩ reader =
      reader.number .uint64 (Varint.decodeUnsigned reader) := by
  simp only [read]
  cases Varint.decodeUnsigned reader <;> rfl

/-- A field fails for want of input wherever its bytes are cut. -/
theorem read_take {field : Field} {value : Value} {front : List UInt8}
    (holds : field.holdsValue = true)
    (spelt : field.Spells value front) (short : front.length ≤ Record.maxLength)
    (closed : ¬field.RunsToEnd) (inside : cut < front.length) (offset : Nat) :
    RanShort (field.read ⟨offset, front.take cut⟩) := by
  obtain ⟨tag, size, sized⟩ := field
  have left : (front.take cut).length < front.length := by
    rw [List.length_take]
    omega
  cases tag with
  | padding => cases holds
  | fixedText =>
    obtain ⟨content, rfl, rfl⟩ := spelt
    rw [length_fixedText] at left
    exact fixedText_short left
  | text =>
    obtain ⟨content, rfl, rfl⟩ := spelt
    cases sized with
    | true =>
      simp only [if_true, length_fixedText] at left
      exact fixedText_short left
    | false =>
      simp only [Bool.false_eq_true, if_false, length_terminated] at inside
      simp only [read, Bool.false_eq_true, if_false, terminated]
      rw [List.take_append_of_le_length (Nat.le_of_lt_succ inside)]
      apply terminatedText_short
      intro byte found
      exact ne_zero_of_mem_beforeNul (List.mem_of_mem_take found)
  | raw =>
    obtain ⟨content, rfl, rfl⟩ := spelt
    cases sized with
    | true =>
      have stored : (⟨.raw, size, true⟩ : Field).sized = true := rfl
      rw [length_image stored] at left
      exact takeBytes_map_short left _
    | false => exact absurd ⟨rfl, rfl⟩ closed
  | sizedRaw =>
    obtain ⟨content, rfl, rfl⟩ := spelt
    rw [List.length_append] at short
    exact sizedBytes_short offset (Record.lt_word_of_short (Nat.le_of_add_left_le short)) inside
  | bits =>
    obtain ⟨n, rfl, _, rfl⟩ := spelt
    exact takeBytes_map_short left _
  | scalar scalar =>
    cases scalar with
    | uint8 | int8 =>
      obtain ⟨n, rfl, _, rfl⟩ := spelt
      exact takeBytes_map_short left _
    | int width =>
      obtain ⟨n, rfl, _, rfl⟩ := spelt
      rw [read_int]
      exact number_starved (Varint.decodeSigned_take offset n inside) _ _
    | uint width =>
      obtain ⟨n, rfl, _, rfl⟩ := spelt
      rw [read_uint]
      exact number_starved (Varint.decodeUnsigned_take offset n inside) _ _
    | recordId =>
      obtain ⟨n, rfl, rfl⟩ := spelt
      rw [Varint.length_bigEndian] at left
      exact takeBytes_map_short left _

end Field

namespace Record

/-- Where the fields of a record end one after another, if the first begins at `start`. -/
def fieldEnds (start : Nat) : List Field → List Value → List Nat
  | [], _ => []
  | field :: fields, values =>
    if field.holdsValue then
      match values with
      | [] => []
      | value :: values =>
        match field.encodedSize value with
        | .ok size => (start + size) :: fieldEnds (start + size) fields values
        | .error _ => []
    else (start + field.size) :: fieldEnds (start + field.size) fields values

theorem fieldEnds_padding {field : Field} (skips : field.holdsValue = false) (start : Nat)
    (fields : List Field) (values : List Value) :
    fieldEnds start (field :: fields) values =
      (start + (Field.zeros field.size).length) ::
        fieldEnds (start + (Field.zeros field.size).length) fields values := by
  rw [fieldEnds.eq_def, Field.length_zeros]
  simp only [skips, Bool.false_eq_true, if_false]

theorem fieldEnds_value {field : Field} {value : Value} {front : List UInt8}
    (holds : field.holdsValue = true) (spelt : field.Spells value front) (start : Nat)
    (fields : List Field) (values : List Value) :
    fieldEnds start (field :: fields) (value :: values) =
      (start + front.length) :: fieldEnds (start + front.length) fields values := by
  rw [fieldEnds, if_pos holds]
  simp only [Field.encodedSize_eq, Field.encode_eq_ok_iff.mpr spelt, Except.map]

/-- The fields up to one of them make up the record up to where it ends. -/
theorem packed_of_fieldEnds {fields : List Field} {values : List Value} {bytes : List UInt8}
    (packed : Packed fields values bytes) (start : Nat) {place stop : Nat}
    (ends : (fieldEnds start fields values)[place]? = some stop) :
    ∃ size, stop = start + size ∧ Packed (fields.take (place + 1)) values (bytes.take size) := by
  induction packed generalizing start place with
  | ended => cases ends
  | padding skips later ih =>
    rw [fieldEnds_padding skips] at ends
    cases place with
    | zero =>
      cases ends
      refine ⟨_, rfl, ?_⟩
      rw [List.take_left, ← List.append_nil (Field.zeros _)]
      exact .padding skips .ended
    | succ place =>
      obtain ⟨size, rfl, upTo⟩ := ih _ ends
      refine ⟨_, Nat.add_assoc .., ?_⟩
      rw [List.take_length_add_append]
      exact .padding skips upTo
  | @value _ _ _ _ _ front holds spelt later ih =>
    rw [fieldEnds_value holds spelt] at ends
    cases place with
    | zero =>
      cases ends
      refine ⟨_, rfl, ?_⟩
      rw [List.take_left, ← List.append_nil front]
      exact .value holds spelt .ended
    | succ place =>
      obtain ⟨size, rfl, upTo⟩ := ih _ ends
      refine ⟨_, Nat.add_assoc .., ?_⟩
      rw [List.take_length_add_append]
      exact .value holds spelt upTo

/-- The part that one field has in a record: it ends behind these bytes, they are read
whatever follows them, and if they are cut the field fails. -/
structure Part (field : Field) (values left : List Value) (front : List UInt8)
    (read : List Value) : Prop where
  ends : ∀ start fields, fieldEnds start (field :: fields) values =
    (start + front.length) :: fieldEnds (start + front.length) fields left
  whole : ∀ offset rest place found,
    Reading.step ⟨⟨offset, front ++ rest⟩, place, found⟩ field =
      .ok ⟨⟨offset + front.length, rest⟩, place + 1, found ++ read⟩
  short : ∀ offset cut place found, cut < front.length →
    ∃ cause, Reading.step ⟨⟨offset, front.take cut⟩, place, found⟩ field =
      .error (.field place cause) ∧ cause.report.kind = .truncatedInput

theorem Part.padding {field : Field} (skips : field.holdsValue = false) (values : List Value) :
    Part field values values (Field.zeros field.size) [] where
  ends start fields := fieldEnds_padding skips start fields values
  whole offset rest place found := by
    rw [Reading.step_padding skips, Field.length_zeros, List.append_nil]
  short offset cut place found inside := by
    rw [Field.length_zeros] at inside
    refine ⟨.shortage ⟨offset, field.size - cut⟩, ?_, rfl⟩
    have length : ((Field.zeros field.size).take cut).length = cut := by
      rw [List.length_take, Field.length_zeros]
      omega
    rw [Reading.step, skips, if_neg Bool.false_ne_true]
    simp only [Reader.take, length]
    rw [if_neg (Nat.not_le.mpr inside)]

theorem Part.value {field : Field} {value : Value} {front : List UInt8}
    (tells : field.TellsEnd) (holds : field.holdsValue = true) (spelt : field.Spells value front)
    (short : front.length ≤ maxLength) (left : List Value) :
    ∃ read, Part field (value :: left) left front [read] := by
  obtain ⟨formed, closed⟩ := tells
  have reads := Field.read_spelt formed holds spelt short
  obtain ⟨read, _, keeps⟩ := reads 0 [] (fun toEnd => absurd toEnd closed)
  refine ⟨read, ?_, ?_, ?_⟩
  · intro start fields
    exact fieldEnds_value holds spelt start fields left
  · intro offset rest place found
    obtain ⟨same, reading, again⟩ := reads offset rest (fun toEnd => absurd toEnd closed)
    rw [Reading.step_value holds reading, again.unique keeps]
  · intro offset cut place found inside
    obtain ⟨cause, after, ran, kind⟩ := Field.read_take holds spelt short closed inside offset
    refine ⟨cause, ?_, kind⟩
    rw [Reading.step, if_pos holds]
    simp only [ran]

/-- A packed record is the part of its first field and a record of the others. -/
theorem Part.of_packed {field : Field} {fields : List Field} {values : List Value}
    {bytes : List UInt8} (packed : Packed (field :: fields) values bytes)
    (tells : field.TellsEnd) (short : bytes.length ≤ maxLength) :
    ∃ front later left read, bytes = front ++ later ∧ Packed fields left later ∧
      Part field values left front read := by
  cases packed with
  | padding skips later => exact ⟨_, _, _, _, rfl, later, .padding skips values⟩
  | value holds spelt later =>
    rw [List.length_append] at short
    obtain ⟨read, part⟩ := Part.value tells holds spelt (by omega) _
    exact ⟨_, _, _, _, rfl, later, part⟩

namespace Reading

/-- Fields that tell their own ends are read alike before any rest. -/
theorem foldlM_append {fields : List Field} {values : List Value} {front : List UInt8}
    (packed : Packed fields values front) (tell : ∀ field ∈ fields, field.TellsEnd)
    (short : front.length ≤ maxLength) :
    ∃ read, ∀ offset rest place found,
      fields.foldlM step ⟨⟨offset, front ++ rest⟩, place, found⟩ =
        .ok ⟨⟨offset + front.length, rest⟩, place + fields.length, found ++ read⟩ := by
  induction fields generalizing values front with
  | nil =>
    rw [packed.nothing_behind rfl]
    refine ⟨[], ?_⟩
    intro offset rest place found
    rw [List.append_nil]
    rfl
  | cons field fields ih =>
    obtain ⟨first, tell⟩ := List.forall_mem_cons.mp tell
    obtain ⟨front, later, left, value, rfl, packed, part⟩ := Part.of_packed packed first short
    rw [List.length_append] at short
    obtain ⟨read, passes⟩ := ih packed tell (by omega)
    refine ⟨value ++ read, ?_⟩
    intro offset rest place found
    rw [List.append_assoc, List.foldlM_cons, part.whole]
    refine (passes _ rest _ _).trans ?_
    rw [List.length_append, List.length_cons, List.append_assoc, Nat.add_assoc, Nat.add_assoc,
      Nat.add_comm 1]

/-- Where fields that tell their own ends are cut, the first of them that does not end by
the cut fails. What fields would follow does not matter. -/
theorem foldlM_take {fields : List Field} {values : List Value} {bytes : List UInt8}
    (packed : Packed fields values bytes) (tell : ∀ field ∈ fields, field.TellsEnd)
    (short : bytes.length ≤ maxLength) (inside : cut < bytes.length) (following : List Field)
    (offset place : Nat) (found : List Value) :
    ∃ passed cause, (fields ++ following).foldlM step ⟨⟨offset, bytes.take cut⟩, place, found⟩ =
        .error (.field (place + passed) cause) ∧
      cause.report.kind = .truncatedInput ∧
      (fieldEnds offset (fields ++ following) values).findIdx? (offset + cut < ·) =
        some passed := by
  induction fields generalizing values bytes cut offset place found with
  | nil =>
    rw [packed.nothing_behind rfl] at inside
    exact absurd inside (Nat.not_lt_zero cut)
  | cons field fields ih =>
    obtain ⟨first, tell⟩ := List.forall_mem_cons.mp tell
    obtain ⟨front, later, left, value, rfl, packed, part⟩ := Part.of_packed packed first short
    rw [List.length_append] at short inside
    rw [List.cons_append, part.ends, List.findIdx?_cons, List.foldlM_cons]
    by_cases early : cut < front.length
    · obtain ⟨cause, failed, kind⟩ := part.short offset cut place found early
      refine ⟨0, cause, ?_, kind, ?_⟩
      · rw [List.take_append_of_le_length (Nat.le_of_lt early), failed]
        rfl
      · rw [if_pos (by simpa using early)]
    · have reached : front.length ≤ cut := Nat.le_of_not_lt early
      obtain ⟨passed, cause, failed, kind, ends⟩ := ih packed tell (by omega)
        (show cut - front.length < later.length by omega) (offset + front.length) (place + 1)
        (found ++ value)
      refine ⟨passed + 1, cause, ?_, kind, ?_⟩
      · rw [List.take_append, List.take_of_length_le reached, part.whole]
        refine Eq.trans failed ?_
        rw [Nat.add_assoc, Nat.add_comm 1]
      · have same : offset + front.length + (cut - front.length) = offset + cut := by omega
        rw [same] at ends
        rw [if_neg (by simpa using reached), ends]
        rfl

end Reading

/-- A field of open length takes all bytes that are left. -/
theorem Reading.step_runsToEnd {field : Field} (toEnd : field.RunsToEnd) (offset place : Nat)
    (found : List Value) (rest : List UInt8) :
    Reading.step ⟨⟨offset, rest⟩, place, found⟩ field =
      .ok ⟨⟨offset + rest.length, []⟩, place + 1, found ++ [.bytes rest]⟩ := by
  obtain ⟨tag, size, sized⟩ := field
  obtain ⟨raw, open_⟩ := toEnd
  cases raw
  cases open_
  have taken := Reader.takeBytes_append offset [] (rfl : rest.length = rest.length)
  rw [List.append_nil] at taken
  have reads : Field.read ⟨.raw, size, false⟩ ⟨offset, rest⟩ =
      (.ok (.bytes rest), ⟨offset + rest.length, []⟩) := by
    simp only [Field.read, Bool.false_eq_true, if_false, taken]
    rfl
  exact Reading.step_value rfl reads place found

/-- What stands behind the fields that tell their own ends is read as it is, and they are
read alike whatever it is. -/
theorem unpack_append_open {descriptor : String} {earlier : List Field} {last : Field}
    {values : List Value} {front : List UInt8}
    (known : Descriptor.fields descriptor = .ok (earlier ++ [last])) (toEnd : last.RunsToEnd)
    (packed : Packed earlier values front) (tell : ∀ field ∈ earlier, field.TellsEnd)
    (short : front.length ≤ maxLength) :
    ∃ read, ∀ rest, front ++ rest ≠ [] →
      unpack descriptor (front ++ rest) = .ok (read ++ [.bytes rest]) := by
  obtain ⟨read, passes⟩ := Reading.foldlM_append packed tell short
  refine ⟨read, ?_⟩
  intro rest nonempty
  have ends := Reading.step_runsToEnd toEnd (0 + front.length) (0 + earlier.length) read rest
  rw [unpack_eq known nonempty, List.foldlM_append, passes]
  change Except.map Reading.values ([last].foldlM Reading.step _) = _
  rw [List.nil_append, List.foldlM_cons, ends]
  rfl

/-- The failure for want of input at the first field that does not end by a cut. -/
def UnpackError.NamesCut (error : UnpackError) (ends : List Nat) (cut : Nat) : Prop :=
  error.report.kind = .truncatedInput ∧
    ∃ place, error.report.field = some place ∧ ends.findIdx? (cut < ·) = some place

theorem take_ne_nil {bytes : List UInt8} (begun : 1 ≤ cut) (inside : cut < bytes.length) :
    bytes.take cut ≠ [] := by
  intro none
  have length := congrArg List.length none
  rw [List.length_take, List.length_nil] at length
  omega

/-- A cut among fields that tell their own ends is named, whatever stands behind them. -/
theorem unpack_take_names_cut {descriptor : String} {fields following : List Field}
    {values : List Value} {front : List UInt8}
    (known : Descriptor.fields descriptor = .ok (fields ++ following))
    (packed : Packed fields values front) (tell : ∀ field ∈ fields, field.TellsEnd)
    (short : front.length ≤ maxLength) (begun : 1 ≤ cut) (inside : cut < front.length)
    (rest : List UInt8) :
    ∃ error, unpack descriptor ((front ++ rest).take cut) = .error error ∧
      error.NamesCut (fieldEnds 0 (fields ++ following) values) cut := by
  obtain ⟨place, cause, failed, kind, ends⟩ :=
    Reading.foldlM_take packed tell short inside following 0 0 []
  simp only [Nat.zero_add] at failed ends
  refine ⟨.field place cause, ?_, kind, place, rfl, ends⟩
  rw [List.take_append_of_le_length (Nat.le_of_lt inside),
    unpack_eq known (take_ne_nil begun inside), failed]
  rfl

/-- Any cut of a record is noticed, and the field it falls into is named, unless it falls
into bytes that run to the end of the buffer: these are then read up to the cut, and all
other values are as they are in the whole record. -/
theorem unpack_truncated {descriptor : String} {values : List Value} {buffer : List UInt8}
    (packs : pack descriptor values = .ok buffer) :
    ∃ fields, Descriptor.fields descriptor = .ok fields ∧
      (∀ place stop : Nat, (fieldEnds 0 fields values)[place]? = some stop →
        Packed (fields.take (place + 1)) values (buffer.take stop)) ∧
      (unpack descriptor (buffer.take 0) = .error .emptyBuffer ∧
        UnpackError.emptyBuffer.report.kind = .invalidArgument) ∧
      (Descriptor.openEnded descriptor = false →
        ∀ cut, 1 ≤ cut → cut < buffer.length →
          ∃ error, unpack descriptor (buffer.take cut) = .error error ∧
            error.NamesCut (fieldEnds 0 fields values) cut) ∧
      (Descriptor.openEnded descriptor = true →
        ∃ earlier last front content read, fields = earlier ++ [last] ∧ last.RunsToEnd ∧
          buffer = front ++ content ∧ Packed earlier values front ∧
          unpack descriptor buffer = .ok (read ++ [.bytes content]) ∧
          ∀ cut, 1 ≤ cut → cut < buffer.length →
            (cut < front.length → ∃ error, unpack descriptor (buffer.take cut) = .error error ∧
              error.NamesCut (fieldEnds 0 fields values) cut) ∧
            (front.length ≤ cut → unpack descriptor (buffer.take cut) =
              .ok (read ++ [.bytes (content.take (cut - front.length))]))) := by
  obtain ⟨fields, known, packed, nonempty, short⟩ := pack_eq_ok_iff.mp packs
  have arranged := Descriptor.fields_arranged known
  have opens := Descriptor.openEnded_iff known
  refine ⟨fields, known, ?_, ⟨rfl, rfl⟩, ?_, ?_⟩
  · intro place stop ends
    obtain ⟨size, rfl, upTo⟩ := packed_of_fieldEnds packed 0 ends
    rwa [Nat.zero_add]
  · intro closed cut begun inside
    have tell := arranged.tellEnd fun toEnd => Bool.eq_false_iff.mp closed (opens.mpr toEnd)
    have whole : Descriptor.fields descriptor = .ok (fields ++ []) := by
      rw [List.append_nil, known]
    have named := unpack_take_names_cut whole packed tell short begun inside []
    rwa [List.append_nil, List.append_nil] at named
  · intro opened
    obtain ⟨earlier, last, rfl, toEnd, tell⟩ := arranged.runsToEnd_last (opens.mp opened)
    obtain ⟨front, content, rfl, packed, _⟩ := packed.of_append
    rw [List.length_append] at short
    obtain ⟨read, reads⟩ := unpack_append_open known toEnd packed tell (by omega)
    refine ⟨earlier, last, front, content, read, rfl, toEnd, rfl, packed,
      reads content nonempty, ?_⟩
    intro cut begun inside
    have left := take_ne_nil begun inside
    constructor
    · intro early
      exact unpack_take_names_cut known packed tell (by omega) begun early content
    · intro late
      have whole : (front ++ content).take cut = front ++ content.take (cut - front.length) := by
        rw [List.take_append, List.take_of_length_le late]
      rw [whole] at left ⊢
      exact reads _ left

/-- A record that tells its own end, to be cut inside a character, a number or a text, and
one that runs to the end of its buffer. -/
theorem unpack_truncated_either_ending :
    (pack "x2sQS" [.text "é", .uint64 9000, .text "ab"] =
        .ok [0, 195, 169, 226, 2, 232, 97, 98, 0] ∧
      ∃ fields, Descriptor.fields "x2sQS" = .ok fields ∧
        ∀ cut, 1 ≤ cut → cut < ([0, 195, 169, 226, 2, 232, 97, 98, 0] : List UInt8).length →
          ∃ error, unpack "x2sQS" (([0, 195, 169, 226, 2, 232, 97, 98, 0] : List UInt8).take cut) =
              .error error ∧
            error.NamesCut (fieldEnds 0 fields [.text "é", .uint64 9000, .text "ab"]) cut) ∧
    pack "q2xu" [.int64 (-300), .bytes [7, 8, 9]] = .ok [63, 20, 0, 0, 7, 8, 9] ∧
      ∃ fields, Descriptor.fields "q2xu" = .ok fields ∧
        ∃ earlier last front content read, fields = earlier ++ [last] ∧ last.RunsToEnd ∧
          [63, 20, 0, 0, 7, 8, 9] = front ++ content ∧
          Packed earlier [.int64 (-300), .bytes [7, 8, 9]] front ∧
          unpack "q2xu" [63, 20, 0, 0, 7, 8, 9] = .ok (read ++ [.bytes content]) ∧
          ∀ cut, 1 ≤ cut → cut < ([63, 20, 0, 0, 7, 8, 9] : List UInt8).length →
            (cut < front.length →
              ∃ error, unpack "q2xu" (([63, 20, 0, 0, 7, 8, 9] : List UInt8).take cut) =
                  .error error ∧
                error.NamesCut (fieldEnds 0 fields [.int64 (-300), .bytes [7, 8, 9]]) cut) ∧
            (front.length ≤ cut →
              unpack "q2xu" (([63, 20, 0, 0, 7, 8, 9] : List UInt8).take cut) =
                .ok (read ++ [.bytes (content.take (cut - front.length))])) := by
  have packsClosed : pack "x2sQS" [.text "é", .uint64 9000, .text "ab"] =
      .ok [0, 195, 169, 226, 2, 232, 97, 98, 0] := by with_unfolding_all rfl
  have packsOpen : pack "q2xu" [.int64 (-300), .bytes [7, 8, 9]] =
      .ok [63, 20, 0, 0, 7, 8, 9] := by with_unfolding_all rfl
  obtain ⟨fields, known, _, _, closed, _⟩ := unpack_truncated packsClosed
  obtain ⟨others, knownOthers, _, _, _, opened⟩ := unpack_truncated packsOpen
  exact ⟨⟨packsClosed, fields, known, closed (by with_unfolding_all rfl)⟩, packsOpen, others,
    knownOthers, opened (by with_unfolding_all rfl)⟩

example : unpack "x2sQS" [0, 195] = .error (.field 1 (.shortage ⟨1, 1⟩)) ∧
    unpack "x2sQS" [0, 195, 169, 226, 2] = .error (.field 2 (.varint (.truncated ⟨3, 1⟩))) ∧
    unpack "x2sQS" [0, 195, 169, 226, 2, 232] = .error (.field 3 (.unterminated 6)) := by
  refine ⟨?_, ?_, ?_⟩ <;> with_unfolding_all rfl

end Record

end OrderPack
