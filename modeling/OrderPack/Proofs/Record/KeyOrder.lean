import OrderPack.Proofs.Record.Packing
import OrderPack.Proofs.Varint.Order

/-! Packed keys sort as rows of values do. The first field in which two records differ
settles their order, since the bytes of a value in one field never begin those of
another: numbers show their length in their lead byte, open text ends with a byte it
does not contain, and open bytes either follow their length or are the last. -/
namespace OrderPack

/-- What a width keeps of a text. -/
def Text.kept (width : Nat) (chars : List Char) :
    { kept : List Char // LongestFitting width chars kept } :=
  ⟨takeFitting width chars, takeFitting_longestFitting width chars⟩

namespace Field

/-- A text as a width stores it: what is kept of it, and zeros behind. -/
def storedText (width : Nat) (text : String) : List UInt8 :=
  let bytes := Text.utf8 (Text.kept width text.toList).val
  bytes ++ List.replicate (width - bytes.length) 0

/-- What is stored of a text is what is written of it. -/
theorem fixedText_eq_storedText (width : Nat) (text : String) :
    fixedText width text.toList = storedText width text := rfl

theorem length_storedText (width : Nat) (text : String) :
    (storedText width text).length = width := by
  rw [← fixedText_eq_storedText, length_fixedText]

/-- The order of two values in a field. Numbers are compared as numbers. Where a field
has a size its values count as they are stored, cut off and filled up; open text counts
up to its first NUL, and bytes that follow their length by this length first. -/
def order (field : Field) (left right : Value) : Ordering :=
  match field.tag, left, right with
  | .scalar _, .int64 m, .int64 n => compare m.toInt n.toInt
  | .scalar _, .uint64 m, .uint64 n | .bits, .uint64 m, .uint64 n => compare m.toNat n.toNat
  | .fixedText, .text s, .text t =>
    compare (storedText field.size s) (storedText field.size t)
  | .text, .text s, .text t =>
    if field.sized then compare (storedText field.size s) (storedText field.size t)
    else compare (beforeNul (Text.bytes s)) (beforeNul (Text.bytes t))
  | .raw, .bytes s, .bytes t => compare (field.image s) (field.image t)
  | .sizedRaw, .bytes s, .bytes t => (compare s.length t.length).then (compare s t)
  | _, _, _ => .eq

theorem compare_sizedRaw_append {x y : List UInt8} (left : x.length < UInt64.size)
    (right : y.length < UInt64.size) (s t : List UInt8) :
    compare (Varint.encodeNat x.length ++ x ++ s) (Varint.encodeNat y.length ++ y ++ t) =
      ((compare x.length y.length).then (compare x y)).then (compare s t) := by
  have word : ∀ {n : Nat}, n < UInt64.size → Varint.InWord n := by
    intro n small
    exact ⟨by simp only [UInt64.size]; omega, Int.ofNat_lt.mpr small⟩
  have prefixed : ∀ n : Nat, Varint.encodeNat n = Varint.encodeInt n := by
    intro n
    rw [Varint.encodeInt, if_neg (by omega), Int.toNat_natCast]
  rw [prefixed, prefixed, List.append_assoc, List.append_assoc,
    Varint.compare_encodeInt_append (word left) (word right), ByteOrder.compare_natCast,
    Ordering.then_assoc]
  by_cases same : x.length = y.length
  · rw [ByteOrder.compare_append_of_length_eq same]
  · have apart : compare x.length y.length ≠ .eq := fun equal =>
      same (Std.LawfulEqOrd.compare_eq_iff_eq.mp equal)
    cases decided : compare x.length y.length with
    | eq => exact absurd decided apart
    | lt | gt => rfl

/-- Two values of a field order whatever begins with them: by the order of the field,
and where that makes no difference by what follows. -/
theorem compare_spelt {field : Field} {left right : Value} {x y : List UInt8}
    (formed : field.WellFormed) (holds : field.holdsValue = true)
    (speltLeft : field.Spells left x) (speltRight : field.Spells right y)
    (shortLeft : x.length ≤ Record.maxLength) (shortRight : y.length ≤ Record.maxLength)
    (s t : List UInt8) (closed : field.RunsToEnd → s = [] ∧ t = []) :
    compare (x ++ s) (y ++ t) = (field.order left right).then (compare s t) := by
  obtain ⟨tag, size, sized⟩ := field
  cases tag with
  | padding => cases holds
  | fixedText =>
    obtain ⟨a, rfl, rfl⟩ := speltLeft
    obtain ⟨b, rfl, rfl⟩ := speltRight
    rw [fixedText_eq_storedText, fixedText_eq_storedText]
    refine ByteOrder.compare_append_of_length_eq ?_ s t
    rw [length_storedText, length_storedText]
  | text =>
    obtain ⟨a, rfl, rfl⟩ := speltLeft
    obtain ⟨b, rfl, rfl⟩ := speltRight
    cases sized with
    | true =>
      simp only [if_true, fixedText_eq_storedText]
      refine ByteOrder.compare_append_of_length_eq ?_ s t
      rw [length_storedText, length_storedText]
    | false =>
      have ended := ByteOrder.compare_terminated (x := beforeNul (Text.bytes a))
        (y := beforeNul (Text.bytes b)) (fun _ => ne_zero_of_mem_beforeNul)
        (fun _ => ne_zero_of_mem_beforeNul) s t
      rwa [← List.singleton_append, ← List.singleton_append (l := t), ← List.append_assoc,
        ← List.append_assoc] at ended
  | raw =>
    obtain ⟨a, rfl, rfl⟩ := speltLeft
    obtain ⟨b, rfl, rfl⟩ := speltRight
    cases sized with
    | true =>
      refine ByteOrder.compare_append_of_length_eq ?_ s t
      rw [length_image rfl, length_image rfl]
    | false =>
      obtain ⟨rfl, rfl⟩ := closed ⟨rfl, rfl⟩
      rw [List.append_nil, List.append_nil, Std.ReflOrd.compare_self, Ordering.then_eq]
      rfl
  | sizedRaw =>
    obtain ⟨a, rfl, rfl⟩ := speltLeft
    obtain ⟨b, rfl, rfl⟩ := speltRight
    obtain rfl : sized = false := formed
    rw [List.length_append] at shortLeft shortRight
    exact compare_sizedRaw_append (Record.lt_word_of_short (Nat.le_of_add_left_le shortLeft))
      (Record.lt_word_of_short (Nat.le_of_add_left_le shortRight)) s t
  | bits =>
    obtain ⟨m, rfl, small, rfl⟩ := speltLeft
    obtain ⟨n, rfl, fits, rfl⟩ := speltRight
    have byte : Nat.pow 2 size ≤ Varint.span 1 := Nat.pow_le_pow_right (by decide) formed.2
    exact Varint.compare_bigEndian_append (Nat.lt_of_lt_of_le small byte)
      (Nat.lt_of_lt_of_le fits byte) s t
  | scalar scalar =>
    cases scalar with
    | int8 =>
      obtain ⟨m, rfl, small, rfl⟩ := speltLeft
      obtain ⟨n, rfl, fits, rfl⟩ := speltRight
      -- The numbers are moved up by as much as keeps them in one byte.
      refine ByteOrder.compare_append_of_precedes
        (fun x => Varint.bigEndian 1 (x + 128).toNat)
        (fun x => -128 ≤ x ∧ x < 128) ?_ small fits s t
      rintro x y ⟨low, _⟩ ⟨_, high⟩ less
      exact Varint.bigEndian_precedes (by omega) (show (y + 128).toNat < 256 by omega)
    | uint8 =>
      obtain ⟨m, rfl, small, rfl⟩ := speltLeft
      obtain ⟨n, rfl, fits, rfl⟩ := speltRight
      exact Varint.compare_bigEndian_append small fits s t
    | int width =>
      obtain ⟨m, rfl, _, rfl⟩ := speltLeft
      obtain ⟨n, rfl, _, rfl⟩ := speltRight
      rw [Varint.encodeSigned_eq_encodeInt, Varint.encodeSigned_eq_encodeInt]
      exact Varint.compare_encodeInt_append (Varint.inWord_toInt m) (Varint.inWord_toInt n) s t
    | uint width =>
      obtain ⟨m, rfl, _, rfl⟩ := speltLeft
      obtain ⟨n, rfl, _, rfl⟩ := speltRight
      rw [Varint.encodeUnsigned_eq_encodeInt, Varint.encodeUnsigned_eq_encodeInt,
        Varint.compare_encodeInt_append (Varint.inWord_toNat m) (Varint.inWord_toNat n),
        ByteOrder.compare_natCast]
      rfl
    | recordId =>
      obtain ⟨m, rfl, rfl⟩ := speltLeft
      obtain ⟨n, rfl, rfl⟩ := speltRight
      exact Varint.compare_bigEndian_append (Varint.toNat_lt_span m) (Varint.toNat_lt_span n) s t

end Field

/-- Rows of values in their order, field by field. -/
def compareFields : List Field → List Value → List Value → Ordering
  | field :: fields, left :: lefts, right :: rights =>
    (field.order left right).then (compareFields fields lefts rights)
  | _, _, _ => .eq

/-- Rows have one place in the order just when their values have it in every field. -/
theorem compareFields_eq_eq_iff {fields : List Field} {lefts rights : List Value} :
    compareFields fields lefts rights = .eq ↔
      ∀ (place : Nat) (field : Field) (left right : Value), fields[place]? = some field →
        lefts[place]? = some left → rights[place]? = some right →
          field.order left right = .eq := by
  induction fields generalizing lefts rights with
  | nil => exact ⟨fun _ _ _ _ _ stands => (nomatch stands), fun _ => rfl⟩
  | cons field fields ih =>
    cases lefts with
    | nil => exact ⟨fun _ _ _ _ _ _ stands => (nomatch stands), fun _ => rfl⟩
    | cons left lefts =>
      cases rights with
      | nil => exact ⟨fun _ _ _ _ _ _ _ stands => (nomatch stands), fun _ => rfl⟩
      | cons right rights =>
        rw [compareFields, Ordering.then_eq_eq, ih]
        constructor
        · rintro ⟨first, later⟩ place field left right inFields inLefts inRights
          cases place with
          | zero =>
            cases inFields
            cases inLefts
            cases inRights
            exact first
          | succ place => exact later place field left right inFields inLefts inRights
        · intro all
          exact ⟨all 0 field left right rfl rfl rfl,
            fun place field left right => all (place + 1) field left right⟩

/-- Records of one row of fields compare as the values they were made of. -/
theorem Packed.compare_eq {fields : List Field} {lefts rights : List Value} {x y : List UInt8}
    (packedLeft : Packed fields lefts x) (packedRight : Packed fields rights y)
    (arranged : Arranged fields) (shortLeft : x.length ≤ Record.maxLength)
    (shortRight : y.length ≤ Record.maxLength) :
    compare x y = compareFields (fields.filter Field.holdsValue) lefts rights := by
  induction packedLeft generalizing rights y with
  | ended =>
    cases packedRight
    rfl
  | @padding fields lefts x field skips later ih =>
    cases packedRight with
    | value holds => exact absurd holds (Bool.eq_false_iff.mp skips)
    | padding _ other =>
      rw [List.length_append] at shortLeft shortRight
      rw [ByteOrder.compare_append_of_length_eq rfl, Std.ReflOrd.compare_self, Ordering.eq_then,
        List.filter_cons_of_neg (Bool.eq_false_iff.mp skips)]
      exact ih other arranged.2.2 (by omega) (by omega)
  | @value fields lefts x field left front holds spelt later ih =>
    cases packedRight with
    | padding skips => exact absurd holds (Bool.eq_false_iff.mp skips)
    | value _ speltRight other =>
      obtain ⟨formed, ends, arranged⟩ := arranged
      rw [List.length_append] at shortLeft shortRight
      rw [Field.compare_spelt formed holds spelt speltRight (by omega) (by omega) _ _
          fun toEnd => ⟨later.nothing_behind (ends toEnd), other.nothing_behind (ends toEnd)⟩,
        ih other arranged (by omega) (by omega), List.filter_cons_of_pos holds, compareFields]

namespace Record

/-- Packed keys sort as the values they are made of: field by field over the fields that
hold a value, each in its own order. Two keys are the same just when no field tells their
values apart. -/
theorem compare_pack {descriptor : String} {lefts rights : List Value} {x y : List UInt8}
    (packsLeft : pack descriptor lefts = .ok x) (packsRight : pack descriptor rights = .ok y) :
    ∃ fields, Descriptor.fields descriptor = .ok fields ∧
      compare x y = compareFields (fields.filter Field.holdsValue) lefts rights ∧
      (x = y ↔ ∀ (place : Nat) (field : Field) (left right : Value),
        (fields.filter Field.holdsValue)[place]? = some field → lefts[place]? = some left →
          rights[place]? = some right → field.order left right = .eq) := by
  obtain ⟨fields, read, packedLeft, _, shortLeft⟩ := pack_eq_ok_iff.mp packsLeft
  obtain ⟨others, readAgain, packedRight, _, shortRight⟩ := pack_eq_ok_iff.mp packsRight
  obtain rfl : fields = others := Except.ok.inj (read.symm.trans readAgain)
  have sorted := packedLeft.compare_eq packedRight (Descriptor.fields_arranged read)
    shortLeft shortRight
  refine ⟨fields, read, sorted, ?_⟩
  rw [← compareFields_eq_eq_iff, ← sorted, Std.LawfulEqOrd.compare_eq_iff_eq]

/-- Bytes behind their length sort by the length, also where those of the shorter row
are greater, and what a text has after its NUL makes no difference. -/
theorem compare_pack_shorter_first :
    pack "qSuu" [.int64 (-65), .text "ab\x00z", .bytes [255], .bytes [1]] =
      .ok [63, 255, 97, 98, 0, 129, 255, 1] ∧
    pack "qSuu" [.int64 (-65), .text "ab", .bytes [0, 0], .bytes []] =
      .ok [63, 255, 97, 98, 0, 130, 0, 0] ∧
    ∃ fields, Descriptor.fields "qSuu" = .ok fields ∧
      compare [63, 255, 97, 98, 0, 129, 255, 1] ([63, 255, 97, 98, 0, 130, 0, 0] : List UInt8) =
        compareFields (fields.filter Field.holdsValue)
          [.int64 (-65), .text "ab\x00z", .bytes [255], .bytes [1]]
          [.int64 (-65), .text "ab", .bytes [0, 0], .bytes []] ∧
      (([63, 255, 97, 98, 0, 129, 255, 1] : List UInt8) = [63, 255, 97, 98, 0, 130, 0, 0] ↔
        ∀ (place : Nat) (field : Field) (left right : Value),
          (fields.filter Field.holdsValue)[place]? = some field →
            [Value.int64 (-65), .text "ab\x00z", .bytes [255], .bytes [1]][place]? = some left →
              [Value.int64 (-65), .text "ab", .bytes [0, 0], .bytes []][place]? = some right →
                field.order left right = .eq) := by
  have first : pack "qSuu" [.int64 (-65), .text "ab\x00z", .bytes [255], .bytes [1]] =
      .ok [63, 255, 97, 98, 0, 129, 255, 1] := by with_unfolding_all rfl
  have second : pack "qSuu" [.int64 (-65), .text "ab", .bytes [0, 0], .bytes []] =
      .ok [63, 255, 97, 98, 0, 130, 0, 0] := by with_unfolding_all rfl
  exact ⟨first, second, compare_pack first second⟩

end Record

end OrderPack
