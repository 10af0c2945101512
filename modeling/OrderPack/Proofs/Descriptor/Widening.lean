import Mathlib.Data.List.Forall2
import OrderPack.Proofs.Descriptor.Grammar
import OrderPack.Proofs.Text.Utf8

/-! Descriptors that differ in how wide they declare their integers. A letter is replaced by one
of the same sign and at least its width, at any number of places. The letters are read alike, so
both descriptors have the same items at the same offsets, the same counts and the same faults,
and their fields stand in pairs that differ in their width alone. -/
namespace OrderPack

/-- Integers of variable length declared at least as wide, with a sign or without as before. -/
inductive Scalar.Widens : Scalar → Scalar → Prop where
  | int {narrow wide : IntWidth} (wider : narrow.bits ≤ wide.bits) :
      Widens (.int narrow) (.int wide)
  | uint {narrow wide : IntWidth} (wider : narrow.bits ≤ wide.bits) :
      Widens (.uint narrow) (.uint wide)

/-- The same field, or one that may hold wider integers. -/
inductive Field.Widens : Field → Field → Prop where
  | same (field : Field) : Widens field field
  | wider {narrow wide : Scalar} (wider : narrow.Widens wide) :
      Widens (Field.ofScalar narrow) (Field.ofScalar wide)

/-- The fields stand in pairs, and what ends them is the same. -/
structure Layout.Widens (narrow wide : Layout) : Prop where
  leading : List.Forall₂ Field.Widens narrow.leading wide.leading
  fault : wide.fault? = narrow.fault?

namespace Descriptor

/-- The letters that declare integers at least as wide as a letter does, of the same sign. -/
def widerLetters : Char → List Char
  | 'h' => ['i', 'l', 'q']
  | 'i' => ['l', 'q']
  | 'l' => ['i', 'q']
  | 'H' => ['I', 'L', 'Q', 'r']
  | 'I' => ['L', 'Q', 'r']
  | 'L' => ['I', 'Q', 'r']
  | 'Q' => ['r']
  | 'r' => ['Q']
  | _ => []

/-- A descriptor in which any number of letters is replaced by wider ones. -/
def Widened (narrow wide : String) : Prop :=
  List.Forall₂ (fun letter other => other = letter ∨ other ∈ widerLetters letter)
    narrow.toList wide.toList

/-- The same byte, or the byte of a wider letter. -/
inductive ByteWidens : UInt8 → UInt8 → Prop where
  | same (byte : UInt8) : ByteWidens byte byte
  | wider {byte other : UInt8} {narrow wide : Scalar}
      (known : Tag.ofByte? byte = some (.scalar narrow))
      (knownOther : Tag.ofByte? other = some (.scalar wide)) (wider : narrow.Widens wide) :
      ByteWidens byte other

theorem ByteWidens.refl (bytes : List UInt8) : List.Forall₂ ByteWidens bytes bytes :=
  List.forall₂_same.mpr fun byte _ => .same byte

theorem byteWidens_of_mem {letter other : Char} (wider : other ∈ widerLetters letter) :
    List.Forall₂ ByteWidens (String.utf8EncodeChar letter) (String.utf8EncodeChar other) := by
  unfold widerLetters at wider
  split at wider <;> simp only [List.mem_cons, List.not_mem_nil, or_false] at wider
  case h_1 =>
    rcases wider with rfl | rfl | rfl <;> exact .cons (.wider rfl rfl (.int (by decide))) .nil
  case h_2 | h_3 =>
    rcases wider with rfl | rfl <;> exact .cons (.wider rfl rfl (.int (by decide))) .nil
  case h_4 =>
    rcases wider with rfl | rfl | rfl | rfl <;>
      exact .cons (.wider rfl rfl (.uint (by decide))) .nil
  case h_5 | h_6 =>
    rcases wider with rfl | rfl | rfl <;> exact .cons (.wider rfl rfl (.uint (by decide))) .nil
  case h_7 | h_8 =>
    subst wider
    exact .cons (.wider rfl rfl (.uint (by decide))) .nil

/-- Letters are single bytes, so a byte is replaced where a letter is and nowhere else. -/
theorem Widened.bytes {narrow wide : String} (widened : Widened narrow wide) :
    List.Forall₂ ByteWidens (spelling narrow) (spelling wide) := by
  have chars : List.Forall₂ ByteWidens (Text.bytes narrow) (Text.bytes wide) := by
    refine List.rel_flatMap widened ?_
    rintro letter other (rfl | wider)
    · exact ByteWidens.refl _
    · exact byteWidens_of_mem wider
  by_cases empty : narrow = ""
  · subst empty
    have none : wide = "" := String.toList_eq_nil_iff.mp (List.forall₂_nil_left_iff.mp widened)
    rw [none]
    exact ByteWidens.refl _
  · have some : wide ≠ "" := by
      rintro rfl
      exact empty (String.toList_eq_nil_iff.mp (List.forall₂_nil_right_iff.mp widened))
    rwa [spelling, spelling, if_neg empty, if_neg some]

end Descriptor

namespace Layout
open Descriptor (ByteWidens)

/-- An item with a wider letter has as many wider fields. -/
theorem ofItem_widens (offset : Nat) (count : Option Nat) {narrow wide : Tag}
    (wider : narrow = wide ∨
      ∃ scalar other, narrow = .scalar scalar ∧ wide = .scalar other ∧ scalar.Widens other)
    (last : Bool) {rest more : Layout} (later : rest.Widens more) :
    (ofItem offset count narrow last rest).Widens (ofItem offset count wide last more) := by
  obtain ⟨leading, fault⟩ := later
  have copies : ∀ {one other : Field} (n : Nat), one.Widens other →
      List.Forall₂ Field.Widens (List.replicate n one ++ rest.leading)
        (List.replicate n other ++ more.leading) := by
    intro one other n widens
    induction n with
    | zero => exact leading
    | succ n ih => exact .cons widens ih
  rcases wider with rfl | ⟨scalar, other, rfl, rfl, wider⟩
  · unfold ofItem
    cases narrow with
    | padding | text | raw | sizedRaw => exact ⟨.cons (.same _) leading, fault⟩
    | fixedText | bits =>
      simp only
      split
      · exact ⟨.cons (.same _) leading, fault⟩
      · exact ⟨.nil, rfl⟩
    | scalar scalar => exact ⟨copies _ (.same _), fault⟩
  · exact ⟨copies _ (.wider wider), fault⟩

/-- Bytes in pairs are scanned alike. -/
theorem scan_widens {bytes others : List UInt8} (widens : List.Forall₂ ByteWidens bytes others)
    (count : Option Count) (offset : Nat) :
    (scan count offset bytes).Widens (scan count offset others) := by
  induction widens generalizing count offset with
  | nil => cases count <;> exact ⟨.nil, rfl⟩
  | @cons byte other bytes others widens later ih =>
    have last : others.isEmpty = bytes.isEmpty := by cases later <;> rfl
    rw [scan, scan]
    cases widens with
    | same =>
      cases digit? byte with
      | some digit =>
        cases count with
        | none => exact ih _ _
        | some count =>
          simp only
          split
          · exact ih _ _
          · exact ⟨.nil, rfl⟩
      | none =>
        simp only
        cases Tag.ofByte? byte with
        | none => exact ⟨.nil, rfl⟩
        | some tag =>
          rw [last]
          exact ofItem_widens _ _ (.inl rfl) _ (ih _ _)
    | wider known knownOther wider =>
      rw [Descriptor.digit?_of_known known, Descriptor.digit?_of_known knownOther]
      simp only [known, knownOther]
      rw [last]
      exact ofItem_widens _ _ (.inr ⟨_, _, rfl, rfl, wider⟩) _ (ih _ _)

end Layout

namespace Descriptor

/-- No letter is a mark or the dot. -/
theorem not_orderMark_of_known {byte : UInt8} {tag : Tag} (known : Tag.ofByte? byte = some tag) :
    ¬OrderMark byte ∧ Char.ofNat byte.toNat ≠ '.' := by
  refine ⟨?_, ?_⟩
  · rintro (mark | mark | mark) <;> simp [Tag.ofByte?, mark] at known
  · intro dot
    simp [Tag.ofByte?, dot] at known

/-- A mark in front is in front of both, or there is none in front of either. -/
theorem head_widens {bytes others : List UInt8} (widens : List.Forall₂ ByteWidens bytes others) :
    (∃ mark, OrderMark mark ∧ bytes.head? = some mark ∧ others.head? = some mark) ∨
      (∀ first ∈ bytes.head?, ¬OrderMark first) ∧ ∀ first ∈ others.head?, ¬OrderMark first := by
  cases widens with
  | nil => exact .inr ⟨by simp, by simp⟩
  | @cons byte other bytes others first later =>
    cases first with
    | same =>
      by_cases mark : OrderMark byte
      · exact .inl ⟨byte, mark, rfl, rfl⟩
      · exact .inr ⟨by simpa using mark, by simpa using mark⟩
    | wider known knownOther =>
      exact .inr ⟨by simpa using (not_orderMark_of_known known).1,
        by simpa using (not_orderMark_of_known knownOther).1⟩

theorem afterDot_widens {bytes others : List UInt8}
    (widens : List.Forall₂ ByteWidens bytes others) :
    (afterDot others).1 = (afterDot bytes).1 ∧
      List.Forall₂ ByteWidens (afterDot bytes).2 (afterDot others).2 := by
  cases widens with
  | nil => exact ⟨rfl, .nil⟩
  | @cons byte other bytes others first later =>
    cases first with
    | same =>
      by_cases dot : Char.ofNat byte.toNat = '.'
      · simpa [afterDot, dot] using later
      · simpa [afterDot, dot] using And.intro (ByteWidens.same byte) later
    | wider known knownOther wider =>
      have letter := (not_orderMark_of_known known).2
      have letterOther := (not_orderMark_of_known knownOther).2
      simpa [afterDot, letter, letterOther] using And.intro (.wider known knownOther wider) later

/-- A widened descriptor is refused for the same reason, or its fields and its fault are those of
the narrow one, but for their widths. -/
theorem Widened.ofText {narrow wide : String} (widened : Widened narrow wide) :
    (∃ cause, Layout.ofText narrow = .error cause ∧ Layout.ofText wide = .error cause) ∨
      ∃ layout other, Layout.ofText narrow = .ok layout ∧ Layout.ofText wide = .ok other ∧
        layout.Widens other := by
  obtain ⟨start, behind⟩ := afterDot_widens widened.bytes
  rcases head_widens widened.bytes with ⟨mark, marked, first, firstOther⟩ | ⟨plain, plainOther⟩
  · have refuses : ∀ text, (spelling text).head? = some mark →
        Layout.ofText text = .error (.byteOrder mark) := by
      intro text front
      rcases ofText_cases text with ⟨other, rest, spelt, _, refused⟩ | ⟨unmarked, _⟩
      · rw [spelt] at front
        cases front
        exact refused
      · exact absurd marked (unmarked mark front)
    exact .inl ⟨_, refuses narrow first, refuses wide firstOther⟩
  · have opens : ∀ text, (∀ letter ∈ (spelling text).head?, ¬OrderMark letter) →
        (afterDot (spelling text)).2 = [] ∧ Layout.ofText text = .error (.noFields 1) ∨
          (afterDot (spelling text)).2 ≠ [] ∧ Layout.ofText text =
            .ok (Layout.scan none (afterDot (spelling text)).1 (afterDot (spelling text)).2) := by
      intro text unmarked
      rcases ofText_cases text with ⟨mark, rest, spelt, marked, _⟩ | ⟨_, opened⟩
      · exact absurd marked (unmarked mark (by simp [spelt]))
      · exact opened
    rcases opens narrow plain with ⟨bare, refused⟩ | ⟨begun, opened⟩
    · rw [bare] at behind
      rcases opens wide plainOther with ⟨_, refusedOther⟩ | ⟨begun, _⟩
      · exact .inl ⟨_, refused, refusedOther⟩
      · exact absurd (List.forall₂_nil_left_iff.mp behind) begun
    · rcases opens wide plainOther with ⟨bare, _⟩ | ⟨_, openedOther⟩
      · rw [bare] at behind
        exact absurd (List.forall₂_nil_right_iff.mp behind) begun
      · rw [start] at openedOther
        exact .inr ⟨_, _, opened, openedOther, Layout.scan_widens behind _ _⟩

end Descriptor

end OrderPack
