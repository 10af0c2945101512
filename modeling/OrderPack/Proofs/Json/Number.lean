import OrderPack.Json.Parser
import OrderPack.Json.Printer

/-! Whole numbers as JSON text. A number that fits a machine word is written by its decimal
digits, and the reader takes these digits for the same number again, whatever sign of
punctuation follows. -/
namespace OrderPack.JsonNumber

/-- A number ends here: neither a digit follows nor anything that would make a fraction or an
exponent of it. -/
def Ends (rest : List Char) : Prop :=
  ∀ c ∈ rest.head?, digit? c = none ∧ c ≠ '.' ∧ c ≠ 'e' ∧ c ≠ 'E'

theorem digit?_of_isDigit {c : Char} (digit : c.isDigit = true) :
    digit? c = some (c.toNat - '0'.toNat) := by
  rw [Char.isDigit, Bool.and_eq_true, decide_eq_true_eq, decide_eq_true_eq] at digit
  exact if_pos digit

/-- Further digits only make a number greater. -/
theorem le_ofDigitChars (digits : List Char) (n : Nat) : n ≤ Nat.ofDigitChars 10 digits n := by
  induction digits generalizing n with
  | nil => exact Nat.le_refl n
  | cons c digits ih =>
    rw [Nat.ofDigitChars_cons]
    exact Nat.le_trans (by omega) (ih _)

/-- The digits of a number that fits a word are all read. -/
theorem wholeDigits_append {digits rest : List Char} {n : Nat} (negative : Bool)
    (decimal : ∀ c ∈ digits, c.isDigit = true)
    (word : Nat.ofDigitChars 10 digits n < UInt64.size) (ends : Ends rest) :
    wholeDigits negative n (digits ++ rest) =
      closeWhole negative (Nat.ofDigitChars 10 digits n) rest := by
  induction digits generalizing n with
  | nil =>
    rw [List.nil_append, Nat.ofDigitChars_nil]
    cases rest with
    | nil => rfl
    | cons c rest => rw [wholeDigits, (ends c rfl).1]
  | cons c digits ih =>
    obtain ⟨first, others⟩ := List.forall_mem_cons.mp decimal
    rw [Nat.ofDigitChars_cons] at word ⊢
    have room : hasRoom n (c.toNat - '0'.toNat) = true := by
      rw [hasRoom, decide_eq_true_eq, Nat.mul_comm]
      exact Nat.lt_of_le_of_lt (le_ofDigitChars digits _) word
    rw [List.cons_append, wholeDigits, digit?_of_isDigit first]
    simp only [room, if_true]
    rw [Nat.mul_comm n]
    exact ih others word

/-- A number other than zero is not written with a zero in front. -/
theorem exists_toDigits {n : Nat} (positive : 0 < n) :
    ∃ c digits, Nat.toDigits 10 n = c :: digits ∧ c ≠ '0' := by
  induction n using Nat.strongRecOn with
  | ind n ih =>
    rw [Nat.toDigits_eq_if (by decide)]
    split
    · rename_i small
      refine ⟨_, [], rfl, fun zero => ?_⟩
      rw [Nat.digitChar_eq_zero] at zero
      omega
    · obtain ⟨c, digits, same, leading⟩ := ih (n / 10) (by omega) (by omega)
      exact ⟨c, digits ++ [(n % 10).digitChar], by rw [same]; rfl, leading⟩

theorem decimal_toDigits (n : Nat) : ∀ c ∈ Nat.toDigits 10 n, c.isDigit = true :=
  fun _ found => Nat.isDigit_of_mem_toDigits (by decide) (by decide) found

/-- The digits of a number are read as this number, whatever is made of it then. -/
theorem unsigned_toDigits {n : Nat} {rest : List Char} (negative : Bool)
    (word : n < UInt64.size) (ends : Ends rest) :
    unsigned negative (Nat.toDigits 10 n ++ rest) = closeWhole negative n rest := by
  rcases Nat.eq_zero_or_pos n with rfl | positive
  · rw [Nat.toDigits_zero, List.singleton_append, unsigned.eq_def]
    simp only
    cases rest with
    | nil => rfl
    | cons c rest =>
      simp only [(ends c rfl).1]
      rfl
  · have decimal := decimal_toDigits n
    have number : Nat.ofDigitChars 10 (Nat.toDigits 10 n) 0 = n := Nat.ofDigitChars_ten_toDigits
    obtain ⟨c, digits, same, leading⟩ := exists_toDigits positive
    rw [same] at decimal number ⊢
    obtain ⟨first, others⟩ := List.forall_mem_cons.mp decimal
    rw [Nat.ofDigitChars_cons, Nat.mul_zero, Nat.zero_add] at number
    have whole := wholeDigits_append (n := c.toNat - '0'.toNat) negative others
      (by rwa [number]) ends
    rw [number] at whole
    rw [List.cons_append, unsigned.eq_def]
    split
    · rename_i none
      cases none
    · rename_i zero
      cases zero
      exact absurd rfl leading
    · rename_i split
      cases split
      rw [digit?_of_isDigit first]
      exact whole

theorem closeWhole_natural {n : Nat} {rest : List Char} (ends : Ends rest) :
    closeWhole false n rest = some (.natural (UInt64.ofNat n), rest) := by
  unfold closeWhole
  split
  · exact absurd rfl (ends '.' rfl).2.1
  · exact absurd rfl (ends 'e' rfl).2.2.1
  · exact absurd rfl (ends 'E' rfl).2.2.2
  · rfl

theorem closeWhole_negative {n : Nat} {rest : List Char} (low : 1 ≤ n)
    (high : n ≤ UInt64.size / 2) (ends : Ends rest) :
    closeWhole true n rest = some (.negative (Int64.ofInt (-n)), rest) := by
  unfold closeWhole
  split
  · exact absurd rfl (ends '.' rfl).2.1
  · exact absurd rfl (ends 'e' rfl).2.2.1
  · exact absurd rfl (ends 'E' rfl).2.2.2
  · rw [if_neg (by simp), if_pos ⟨low, high⟩]

theorem render_natural (n : UInt64) : (natural n).render = Nat.toDigits 10 n.toNat := by
  rw [render, Nat.toString_eq_repr, Nat.toList_repr]

/-- A number that is not negative reads back as it is written. -/
theorem unsigned_natural (n : UInt64) {rest : List Char} (ends : Ends rest) :
    unsigned false ((natural n).render ++ rest) = some (natural n, rest) := by
  rw [render_natural, unsigned_toDigits false n.toNat_lt ends, closeWhole_natural ends,
    UInt64.ofNat_toNat]

/-- A number below zero is written as a minus sign and the digits of a number that reads back
as it. -/
theorem unsigned_negative {n : Int64} (below : n.toInt < 0) {rest : List Char}
    (ends : Ends rest) :
    ∃ digits, (negative n).render = '-' :: digits ∧
      unsigned true (digits ++ rest) = some (negative n, rest) := by
  have least := n.le_toInt
  obtain ⟨m, same⟩ := Int.eq_negSucc_of_lt_zero below
  have magnitude : ((m + 1 : Nat) : Int) = -n.toInt := by omega
  refine ⟨Nat.toDigits 10 (m + 1), ?_, ?_⟩
  · rw [render, same, Int.toString_eq_repr, Int.repr, String.toList_append, Nat.toList_repr]
    rfl
  · have small : m + 1 ≤ 9223372036854775808 := by omega
    have word : m + 1 < UInt64.size := Nat.lt_of_le_of_lt small (by decide)
    rw [unsigned_toDigits true word ends, closeWhole_negative (Nat.succ_pos m) small ends,
      magnitude, Int.neg_neg, Int64.ofInt_toInt]

end OrderPack.JsonNumber
