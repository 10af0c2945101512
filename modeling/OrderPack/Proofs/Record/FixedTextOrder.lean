import OrderPack.Proofs.Descriptor.Grammar
import OrderPack.Proofs.Record.KeyOrder

/-! Text in a fixed width and the order of texts. A text is cut between two characters, and
what room is left is filled with zeros. Where two texts come to differ, the character of the
one that sorts first may still have room when the other's, which takes more bytes, has none.
The other text then goes on with zeros, and so it is stored before the first. This is the
only way in which a width turns the order round. -/
namespace OrderPack

namespace Text
open ByteOrder

/-- Characters that differ do so in their bytes before either of them ends. -/
theorem encode_precedes {c d : Char} (differ : c ≠ d) :
    Precedes (String.utf8EncodeChar c) (String.utf8EncodeChar d) ∨
      Precedes (String.utf8EncodeChar d) (String.utf8EncodeChar c) := by
  rcases precedes_or_begins (String.utf8EncodeChar c) (String.utf8EncodeChar d) with
    before | after | begins | begins
  · exact .inl before
  · exact .inr after
  · exact absurd (eq_of_encode_begins begins) differ
  · exact absurd (eq_of_encode_begins begins).symm differ

/-- The first text is stored behind the second for the sake of the width: at the first
character in which they differ the first text has room for its own and the second has not,
and something other than NUL is kept of the first from there on. -/
inductive Overtakes : Nat → List Char → List Char → Prop where
  | here (room : c.utf8Size ≤ width)
      (cut : width < d.utf8Size)
      (shown : ∃ kept ∈ takeFitting width (c :: s), kept ≠ '\x00') :
      Overtakes width (c :: s) (d :: t)
  | there (room : c.utf8Size ≤ width)
      (later : Overtakes (width - c.utf8Size) s t) :
      Overtakes width (c :: s) (c :: t)

theorem overtakes_same {c : Char} {s t : List Char} {width : Nat} :
    Overtakes width (c :: s) (c :: t) ↔ c.utf8Size ≤ width ∧
      Overtakes (width - c.utf8Size) s t := by
  constructor
  · intro overtakes
    cases overtakes with
    | here room cut => exact absurd room (Nat.not_le.mpr cut)
    | there room later => exact ⟨room, later⟩
  · rintro ⟨room, later⟩
    exact .there room later

theorem overtakes_differ {c d : Char} {s t : List Char} {width : Nat} (differ : c ≠ d) :
    Overtakes width (c :: s) (d :: t) ↔ c.utf8Size ≤ width ∧
      width < d.utf8Size ∧
      ∃ kept ∈ takeFitting width (c :: s), kept ≠ '\x00' := by
  constructor
  · intro overtakes
    cases overtakes with
    | here room cut shown => exact ⟨room, cut, shown⟩
    | there => exact absurd rfl differ
  · rintro ⟨room, cut, shown⟩
    exact .here room cut shown

end Text

namespace Field
open Text ByteOrder

/-- A character that has room is stored, and the others in the room that is left. -/
theorem fixedText_of_room {c : Char} (room : c.utf8Size ≤ width)
    (rest : List Char) :
    fixedText width (c :: rest) = String.utf8EncodeChar c ++
      fixedText (width - c.utf8Size) rest := by
  simp only [fixedText, takeFitting, String.length_utf8EncodeChar, if_pos room, utf8_cons,
    List.length_append, List.append_assoc, Nat.sub_sub]

/-- From a character without room on nothing is stored. -/
theorem fixedText_of_cut {c : Char} (cut : width < c.utf8Size)
    (rest : List Char) : fixedText width (c :: rest) = zeros width := by
  rw [fixedText, takeFitting, String.length_utf8EncodeChar, if_neg (Nat.not_le.mpr cut)]
  rfl

/-- No text of the width is stored before a row of zeros. -/
theorem fixedText_not_lt_zeros (width : Nat) (chars : List Char) :
    compare (fixedText width chars) (zeros width) ≠ .lt := by
  have least := compare_zeros_ne_lt (fixedText width chars)
  rwa [length_fixedText] at least

theorem zeros_not_gt_fixedText (width : Nat) (chars : List Char) :
    compare (zeros width) (fixedText width chars) ≠ .gt := by
  rw [ne_eq, Std.OrientedCmp.gt_iff_lt]
  exact fixedText_not_lt_zeros width chars

/-- Text is stored behind a row of zeros if something other than NUL is kept of it. -/
theorem compare_fixedText_zeros (width : Nat) (chars : List Char) :
    compare (fixedText width chars) (zeros width) = .gt ↔
      ∃ kept ∈ takeFitting width chars, kept ≠ '\x00' := by
  have nothing : (∀ byte ∈ fixedText width chars, byte = 0) ↔
      ∀ c ∈ takeFitting width chars, c = '\x00' := by
    rw [← utf8_all_zero_iff, fixedText, zeros]
    simp only [List.mem_append, List.mem_replicate]
    constructor
    · intro zero byte kept
      exact zero byte (.inl kept)
    · rintro zero byte (kept | ⟨_, filled⟩)
      · exact zero byte kept
      · exact filled
  have equal := compare_zeros_eq_eq_iff (fixedText width chars)
  rw [length_fixedText, nothing] at equal
  have least := fixedText_not_lt_zeros width chars
  rw [zeros] at least ⊢
  have shown : (∃ kept ∈ takeFitting width chars, kept ≠ '\x00') ↔
      ¬∀ c ∈ takeFitting width chars, c = '\x00' := by
    simp only [Classical.not_forall, exists_prop, ne_eq]
  rw [shown, ← equal]
  cases order : compare (fixedText width chars) (List.replicate width 0) with
  | lt => exact absurd order least
  | eq | gt => decide

/-- Where the first characters differ, the smaller text is stored behind the greater one just
if its character has room, the other has none, and it has something to show. -/
theorem compare_fixedText_differ {c d : Char}
    (before : Precedes (String.utf8EncodeChar c) (String.utf8EncodeChar d)) (width : Nat)
    (s t : List Char) :
    compare (fixedText width (c :: s)) (fixedText width (d :: t)) = .gt ↔
      c.utf8Size ≤ width ∧ width < d.utf8Size ∧
        ∃ kept ∈ takeFitting width (c :: s), kept ≠ '\x00' := by
  by_cases room : c.utf8Size ≤ width
  · by_cases fits : d.utf8Size ≤ width
    · rw [fixedText_of_room room, fixedText_of_room fits, (before.append _ _).compare_eq_lt]
      simp [Nat.not_lt.mpr fits]
    · have cut := Nat.lt_of_not_le fits
      rw [fixedText_of_cut cut, compare_fixedText_zeros]
      simp [room, cut]
  · rw [fixedText_of_cut (Nat.lt_of_not_le room)]
    simp [room, zeros_not_gt_fixedText]

/-- Of two texts in their order the first is stored behind the second just where it
overtakes it. -/
theorem compare_fixedText_eq_gt_iff {first second : List Char}
    (ordered : compare (utf8 first) (utf8 second) ≠ .gt) (width : Nat) :
    compare (fixedText width first) (fixedText width second) = .gt ↔
      Overtakes width first second := by
  induction first generalizing second width with
  | nil =>
    constructor
    · intro greater
      exact absurd greater (zeros_not_gt_fixedText width second)
    · intro overtakes
      cases overtakes
  | cons c s ih =>
    cases second with
    | nil =>
      have longer : compare (utf8 (c :: s)) (utf8 []) = .gt := by
        cases bytes : utf8 (c :: s) with
        | nil => simp [String.utf8EncodeChar_ne_nil] at bytes
        | cons => rfl
      exact absurd longer ordered
    | cons d t =>
      by_cases same : c = d
      · subst same
        rw [utf8_cons, utf8_cons, compare_append_of_length_eq rfl, Std.ReflOrd.compare_self,
          Ordering.eq_then] at ordered
        rw [overtakes_same]
        by_cases room : c.utf8Size ≤ width
        · rw [fixedText_of_room room, fixedText_of_room room, compare_append_of_length_eq rfl,
            Std.ReflOrd.compare_self, Ordering.eq_then, ih ordered]
          simp [room]
        · have cut := Nat.lt_of_not_le room
          rw [fixedText_of_cut cut, fixedText_of_cut cut, Std.ReflOrd.compare_self]
          simp [room]
      · rw [overtakes_differ same]
        rcases encode_precedes same with before | after
        · exact compare_fixedText_differ before width s t
        · rw [utf8_cons, utf8_cons] at ordered
          exact absurd (after.append (utf8 t) (utf8 s)).compare_eq_gt ordered

end Field

namespace Record

/-- A width before either letter of texts is a descriptor of one text of this width. -/
theorem fields_fixed_text {letter : String} {byte : UInt8} {tag : Tag} {width : Nat}
    (spelt : Text.bytes letter = [byte]) (known : Tag.ofByte? byte = some tag)
    (textual : tag = .fixedText ∨ tag = .text) (positive : 1 ≤ width)
    (word : width < UInt64.size) :
    Descriptor.fields (toString width ++ letter) = .ok [⟨tag, width, true⟩] := by
  obtain ⟨item, rfl, counted, read⟩ := Descriptor.fields_counted width spelt known
  have count : item.count = width := by rw [Descriptor.Item.count, counted]; rfl
  have number : Descriptor.numeral item.digits = width := by
    unfold Descriptor.Item.count? at counted
    split at counted
    · cases counted
    · exact Option.some.inj counted
  have sound : item.Sound := by
    refine ⟨by rwa [number], fun _ => by rwa [count], ?_⟩
    intro bits
    rcases textual with text | text <;> cases bits.symm.trans text
  rw [read sound, Descriptor.Item.fields]
  rcases textual with text | text <;> simp [text, count, counted]

/-- Text of a fixed width always packs, into as many bytes. -/
theorem pack_fixed_text {descriptor : String} {tag : Tag} {width : Nat}
    (read : Descriptor.fields descriptor = .ok [⟨tag, width, true⟩])
    (textual : tag = .fixedText ∨ tag = .text) (positive : 1 ≤ width)
    (short : width ≤ maxLength) (content : String) :
    pack descriptor [.text content] = .ok (Field.fixedText width content.toList) := by
  have length := Field.length_fixedText width content.toList
  refine pack_eq_ok_iff.mpr ⟨_, read, ?_, ?_, length.symm ▸ short⟩
  · rw [← List.append_nil (Field.fixedText width content.toList)]
    rcases textual with rfl | rfl
    · exact .value rfl ⟨content, rfl, rfl⟩ .ended
    · exact .value rfl ⟨content, rfl, rfl⟩ .ended
  · intro empty
    rw [empty] at length
    exact absurd length.symm (Nat.ne_of_gt positive)

/-- Texts packed into one width keep their order, unless the first overtakes the second: the
character in which they first differ has room in the first and none in the second, and the
first has more than NULs to show from there on. Then, and only then, the first is packed
behind the second. -/
theorem pack_fixed_text_order {width : Nat} {letter : String} (positive : 1 ≤ width)
    (short : width ≤ maxLength) (either : letter = "s" ∨ letter = "S") (first second : String) :
    ∃ x y, pack (toString width ++ letter) [.text first] = .ok x ∧
      pack (toString width ++ letter) [.text second] = .ok y ∧
      x.length = width ∧ y.length = width ∧
      (compare (Text.bytes first) (Text.bytes second) ≠ .gt →
        (compare x y = .gt ↔ Text.Overtakes width first.toList second.toList)) := by
  have word := lt_word_of_short short
  have read : ∃ tag, (tag = .fixedText ∨ tag = .text) ∧
      Descriptor.fields (toString width ++ letter) = .ok [⟨tag, width, true⟩] := by
    rcases either with rfl | rfl
    · exact ⟨.fixedText, .inl rfl, fields_fixed_text rfl rfl (.inl rfl) positive word⟩
    · exact ⟨.text, .inr rfl, fields_fixed_text rfl rfl (.inr rfl) positive word⟩
  obtain ⟨tag, textual, read⟩ := read
  refine ⟨_, _, pack_fixed_text read textual positive short first,
    pack_fixed_text read textual positive short second, Field.length_fixedText width _,
    Field.length_fixedText width _, ?_⟩
  intro ordered
  exact Field.compare_fixedText_eq_gt_iff ordered width

/-- Two texts that begin alike and go on with a character of two bytes and one of three. -/
theorem pack_fixed_text_order_three :
    1 ≤ 3 ∧ 3 ≤ maxLength ∧ compare (Text.bytes "aéz") (Text.bytes "a€") ≠ .gt ∧
      ∃ x y, pack "3S" [.text "aéz"] = .ok x ∧ pack "3S" [.text "a€"] = .ok y ∧
        x.length = 3 ∧ y.length = 3 ∧
        (compare x y = .gt ↔ Text.Overtakes 3 "aéz".toList "a€".toList) := by
  have ordered : compare (Text.bytes "aéz") (Text.bytes "a€") ≠ .gt := by
    have less : compare (Text.bytes "aéz") (Text.bytes "a€") = .lt := by with_unfolding_all rfl
    rw [less]
    decide
  obtain ⟨x, y, packsFirst, packsSecond, lengthFirst, lengthSecond, overtakes⟩ :=
    pack_fixed_text_order (show 1 ≤ 3 by decide) (by decide) (.inr rfl) "aéz" "a€"
  exact ⟨by decide, by decide, ordered, x, y, packsFirst, packsSecond, lengthFirst, lengthSecond,
    overtakes ordered⟩

/-- A letter is stored behind one that needs a byte more than there is. -/
theorem cut_turns_order_round :
    compare (Text.bytes "a") (Text.bytes "é") = .lt ∧
    pack "1s" [.text "a"] = .ok [97] ∧ pack "1s" [.text "é"] = .ok [0] ∧
    pack "1S" [.text "a"] = .ok [97] ∧ pack "1S" [.text "é"] = .ok [0] ∧
    ¬∀ (width : Nat) (letter first second : String) (x y : List UInt8), 1 ≤ width →
      width ≤ maxLength → letter = "s" ∨ letter = "S" →
        compare (Text.bytes first) (Text.bytes second) ≠ .gt →
          pack (toString width ++ letter) [.text first] = .ok x →
            pack (toString width ++ letter) [.text second] = .ok y → compare x y ≠ .gt := by
  have less : compare (Text.bytes "a") (Text.bytes "é") = .lt := by with_unfolding_all rfl
  have smaller : pack "1s" [.text "a"] = .ok [97] := by with_unfolding_all rfl
  have greater : pack "1s" [.text "é"] = .ok [0] := by with_unfolding_all rfl
  refine ⟨less, smaller, greater, by with_unfolding_all rfl, by with_unfolding_all rfl, ?_⟩
  intro kept
  have ordered : compare (Text.bytes "a") (Text.bytes "é") ≠ .gt := by
    rw [less]
    decide
  exact kept 1 "s" "a" "é" [97] [0] (by decide) (by decide) (.inl rfl) ordered smaller greater rfl

end Record

end OrderPack
