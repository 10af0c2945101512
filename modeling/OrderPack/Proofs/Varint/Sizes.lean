import OrderPack.Proofs.Varint.Order
import OrderPack.Proofs.Varint.RoundTrip

/-! How long encoded integers are. A size is found from the class of the number and from how
many digits it has there, and both only grow with the distance from zero. At the seam behind
the two-byte class there are no digits to count, and the size is that of the class before. -/
namespace OrderPack.Varint

/-- Every word takes a lead byte and no more than the digits of a whole word. -/
theorem length_encodeInt_bounds {x : Int} (word : InWord x) :
    1 ≤ (encodeInt x).length ∧ (encodeInt x).length ≤ maxLength := by
  have digits := (Form.ofInt_valid word).length
  rw [encodeInt_eq_bytes, Form.bytes, List.length_cons, length_bigEndian, maxLength]
  omega

/-- The sizes of the classes that are not negative. Behind the seam there is a digit to count. -/
theorem sizeNat_cases (n : Nat) :
    n ≤ 63 ∧ sizeNat n = 1 ∨
    63 < n ∧ n ≤ 8256 ∧ sizeNat n = 2 ∨
    8256 < n ∧ 1 ≤ byteLength (n - 8256) ∧ sizeNat n = 1 + byteLength (n - 8256) := by
  by_cases short : n ≤ 63
  · exact .inl ⟨short, if_pos short⟩
  · by_cases medium : n ≤ 8256
    · exact .inr (.inl ⟨by omega, medium, (if_neg short).trans (if_pos medium)⟩)
    · have digit := byteLength_pos (n := n - 8256) (by omega)
      exact .inr (.inr ⟨by omega, digit, (if_neg short).trans (if_neg medium)⟩)

/-- The sizes of the negative classes. -/
theorem sizeSigned_cases {x : Int64} (negative : x.toInt < 0) :
    -64 ≤ x.toInt ∧ sizeSigned x = 1 ∨
    x.toInt < -64 ∧ -8256 ≤ x.toInt ∧ sizeSigned x = 2 ∨
    x.toInt < -8256 ∧ 1 ≤ byteLength (-x.toInt - 1).toNat ∧
      sizeSigned x = 1 + byteLength (-x.toInt - 1).toNat := by
  by_cases long : x.toInt < -8256
  · have digit := byteLength_pos (n := (-x.toInt - 1).toNat) (by omega)
    exact .inr (.inr ⟨long, digit, if_pos long⟩)
  · by_cases medium : x.toInt < -64
    · exact .inr (.inl ⟨medium, by omega, (if_neg long).trans (if_pos medium)⟩)
    · refine .inl ⟨by omega, ?_⟩
      exact (if_neg long).trans ((if_neg medium).trans (if_pos negative))

theorem sizeSigned_of_nonneg {x : Int64} (positive : 0 ≤ x.toInt) :
    sizeSigned x = sizeNat x.toInt.toNat := by
  have notLong : ¬x.toInt < mediumMin := Int.not_lt.mpr (Int.le_trans (by decide) positive)
  have notMedium : ¬x.toInt < shortMin := Int.not_lt.mpr (Int.le_trans (by decide) positive)
  rw [sizeSigned, if_neg notLong, if_neg notMedium, if_neg (Int.not_lt.mpr positive)]

theorem sizeNat_mono (less : m ≤ n) : sizeNat m ≤ sizeNat n := by
  have digits := byteLength_mono (show m - 8256 ≤ n - 8256 by omega)
  rcases sizeNat_cases m with ⟨_, first⟩ | ⟨_, _, first⟩ | ⟨_, _, first⟩ <;>
  rcases sizeNat_cases n with ⟨_, second⟩ | ⟨_, _, second⟩ | ⟨_, _, second⟩ <;>
  omega

theorem sizeNat_le (small : n < UInt64.size) : sizeNat n ≤ maxLength := by
  have digits := (Form.ofNat_valid small).length
  rw [← length_encodeNat, encodeNat_eq_bytes, Form.bytes, List.length_cons, length_bigEndian,
    maxLength]
  omega

/-- A negative word takes more bytes the farther it is from zero. -/
theorem sizeSigned_anti {x y : Int64} (less : y.toInt ≤ x.toInt) (negative : x.toInt < 0) :
    sizeSigned x ≤ sizeSigned y := by
  have digits := byteLength_mono (show (-x.toInt - 1).toNat ≤ (-y.toInt - 1).toNat by omega)
  rcases sizeSigned_cases negative with ⟨_, first⟩ | ⟨_, _, first⟩ | ⟨_, _, first⟩ <;>
  rcases sizeSigned_cases (Int.lt_of_le_of_lt less negative) with
    ⟨_, second⟩ | ⟨_, _, second⟩ | ⟨_, _, second⟩ <;>
  omega

/-- A size is the length of the encoding, one byte at least and nine at most. It never shrinks
with the magnitude, neither within a class nor from one class to the next. -/
theorem sizes_exact_and_growing :
    maxLength = 9 ∧
    (∀ x : UInt64, sizeUnsigned x = (encodeUnsigned x).length ∧
      1 ≤ sizeUnsigned x ∧ sizeUnsigned x ≤ maxLength) ∧
    (∀ x : Int64, sizeSigned x = (encodeSigned x).length ∧
      1 ≤ sizeSigned x ∧ sizeSigned x ≤ maxLength) ∧
    (∀ x y : UInt64, x ≤ y → sizeUnsigned x ≤ sizeUnsigned y) ∧
    (∀ x y : Int64, 0 ≤ x ∧ x ≤ y ∨ y ≤ x ∧ x < 0 → sizeSigned x ≤ sizeSigned y) := by
  refine ⟨rfl, ?_, ?_, ?_, ?_⟩
  · intro x
    have bounds := length_encodeInt_bounds (inWord_toNat x)
    rw [← encodeUnsigned_eq_encodeInt, length_encodeUnsigned] at bounds
    exact ⟨(length_encodeUnsigned x).symm, bounds⟩
  · intro x
    have bounds := length_encodeInt_bounds (inWord_toInt x)
    rw [← encodeSigned_eq_encodeInt, length_encodeSigned] at bounds
    exact ⟨(length_encodeSigned x).symm, bounds⟩
  · intro x y less
    exact sizeNat_mono (UInt64.le_iff_toNat_le.mp less)
  · rintro x y (⟨positive, less⟩ | ⟨less, negative⟩)
    · have lower : 0 ≤ x.toInt := Int64.le_iff_toInt_le.mp positive
      have upper := Int64.le_iff_toInt_le.mp less
      rw [sizeSigned_of_nonneg lower, sizeSigned_of_nonneg (Int.le_trans lower upper)]
      apply sizeNat_mono
      omega
    · apply sizeSigned_anti
      · exact Int64.le_iff_toInt_le.mp less
      · exact Int64.lt_iff_toInt_lt.mp negative

end OrderPack.Varint
