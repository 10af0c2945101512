import Mathlib.Data.List.Forall2
import Mathlib.Tactic.IntervalCases
import OrderPack.Proofs.Text.Blank
import OrderPack.Proofs.Text.Utf8
import OrderPack.Text.Hex

/-! Which texts are hexadecimal. What is left of a text without its margins, its mark and the
gaps between digits has to be digits in pairs, and then spells one byte for each pair. Reading
goes over bytes and not over characters; this makes no difference, since no byte of a character
beyond ASCII is taken for a digit or for a gap. -/
namespace OrderPack.Text

/-- The white space that may stand between digits. -/
def isGap (c : Char) : Bool :=
  c == ' ' || c == '\t' || c == '\n' || c == '\x0c' || c == '\r'

/-- A hexadecimal digit of either case, with its value. -/
def HexDigit (c : Char) (value : Nat) : Prop :=
  "0123456789abcdef".toList[value]? = some c ∨ "0123456789ABCDEF".toList[value]? = some c

theorem lt_of_hexDigit {c : Char} {value : Nat} (digit : HexDigit c value) : value < 16 := by
  rcases digit with lower | upper
  · exact (List.getElem?_eq_some_iff.mp lower).1
  · exact (List.getElem?_eq_some_iff.mp upper).1

/-- A digit is a character of ASCII and is read as what it stands for. -/
theorem HexDigit.read {c : Char} {value : Nat} (digit : HexDigit c value) :
    c.toNat < 128 ∧ hexDigitValue? (UInt8.ofNat c.toNat) = some value := by
  have small := lt_of_hexDigit digit
  rcases digit with lower | upper
  · interval_cases value <;> cases lower <;> exact ⟨by decide, rfl⟩
  · interval_cases value <;> cases upper <;> exact ⟨by decide, rfl⟩

theorem not_hexDigit_x {value : Nat} : ¬HexDigit 'x' value := by
  intro digit
  have read := digit.read.2
  cases read

/-- Digits with gaps anywhere among them. -/
def Gapped (chars : List Char) : Prop :=
  ∀ c ∈ chars.filter (!isGap ·), ∃ value, HexDigit c value

theorem Gapped.no_x {chars : List Char} (gapped : Gapped chars) : 'x' ∉ chars := by
  intro found
  obtain ⟨value, digit⟩ := gapped 'x' (List.mem_filter.mpr ⟨found, rfl⟩)
  exact not_hexDigit_x digit

/-- Digits begin with no mark. -/
theorem Gapped.unmarked {chars kept : List Char} (gapped : Gapped chars) (within : kept ⊆ chars) :
    dropHexMark kept = kept := by
  unfold dropHexMark
  split
  · exact absurd (within (by simp)) gapped.no_x
  · rfl

/-- A pair of digits may be split by a gap, and blanks beyond ASCII only stand in margins. -/
example : decodeHex "\u2003 0x0 a\tfF\n" = .ok [10, 255] ∧
    decodeHex "0a\u00a0ff" = .error (.notDigit 2) :=
  ⟨by with_unfolding_all rfl, by with_unfolding_all rfl⟩

end OrderPack.Text
