import OrderPack.Proofs.ByteOrder
import OrderPack.Varint.Basic

/-! Rows of base 256 digits. A row of fixed length spells every number below its
span, rows of one length sort like their numbers, and a number takes as many digits
as the least span above it. -/
namespace OrderPack.Varint
open ByteOrder

theorem span_succ (count : Nat) : span (count + 1) = 256 * span count := rfl

theorem span_pos (count : Nat) : 0 < span count := by
  induction count with
  | zero => exact Nat.one_pos
  | succ count ih => rw [span_succ]; omega

theorem span_mono (fewer : m ≤ n) : span m ≤ span n := by
  induction fewer with
  | refl => exact Nat.le_refl _
  | step _ ih => rw [span_succ]; omega

@[simp] theorem length_bigEndian (count n : Nat) : (bigEndian count n).length = count := by
  induction count with
  | zero => rfl
  | succ count ih => simp [bigEndian, ih]

/-- The value of a number's leading digit, and of what it leaves to the others. -/
private theorem mod_span_succ (count n : Nat) :
    n % span (count + 1) = n / span count % 256 * span count + n % span count := by
  rw [span_succ, Nat.mul_comm 256, Nat.mod_mul, Nat.mul_comm (span count), Nat.add_comm]

private theorem foldl_bigEndian (count n start : Nat) :
    (bigEndian count n).foldl (fun n byte => n * 256 + byte.toNat) start =
      start * span count + n % span count := by
  induction count generalizing start with
  | zero => simp [bigEndian, span, Nat.mod_one]
  | succ count ih =>
    have digit : (UInt8.ofNat (n / span count)).toNat = n / span count % 256 :=
      UInt8.toNat_ofNat'
    rw [bigEndian, List.foldl_cons, ih, digit, mod_span_succ, Nat.add_mul, span_succ,
      Nat.mul_assoc, Nat.add_assoc]

/-- Reading the digits back gives the number, as far as the row could hold it. -/
theorem fromBigEndian_bigEndian_mod (count n : Nat) :
    fromBigEndian (bigEndian count n) = n % span count := by
  rw [fromBigEndian, foldl_bigEndian, Nat.zero_mul, Nat.zero_add]

theorem fromBigEndian_bigEndian (fits : n < span count) :
    fromBigEndian (bigEndian count n) = n := by
  rw [fromBigEndian_bigEndian_mod, Nat.mod_eq_of_lt fits]

private theorem foldl_bytes (bytes : List UInt8) (start : Nat) :
    bytes.foldl (fun n byte => n * 256 + byte.toNat) start =
      start * span bytes.length + fromBigEndian bytes := by
  induction bytes generalizing start with
  | nil => simp [fromBigEndian, span]
  | cons byte bytes ih =>
    rw [fromBigEndian, List.foldl_cons, List.foldl_cons, ih, ih (0 * 256 + byte.toNat),
      List.length_cons, span_succ, ← Nat.mul_assoc, ← Nat.add_assoc, ← Nat.add_mul]
    simp

/-- The first byte is the leading digit. -/
theorem fromBigEndian_cons (byte : UInt8) (bytes : List UInt8) :
    fromBigEndian (byte :: bytes) = byte.toNat * span bytes.length + fromBigEndian bytes := by
  rw [fromBigEndian, List.foldl_cons, foldl_bytes]
  simp

/-- A row of bytes spells a number in the span of its length. -/
theorem fromBigEndian_lt (bytes : List UInt8) : fromBigEndian bytes < span bytes.length := by
  induction bytes with
  | nil => simp [fromBigEndian, span]
  | cons byte bytes ih =>
    have digit := Nat.mul_le_mul_right (span bytes.length) (Nat.succ_le_of_lt byte.toNat_lt)
    rw [Nat.succ_mul] at digit
    rw [fromBigEndian_cons, List.length_cons, span_succ]
    omega

/-- Two rows of one length spell different numbers. -/
theorem eq_of_fromBigEndian {bytes other : List UInt8} (length : bytes.length = other.length)
    (same : fromBigEndian bytes = fromBigEndian other) : bytes = other := by
  induction bytes generalizing other with
  | nil => exact (List.eq_nil_of_length_eq_zero length.symm).symm
  | cons a bytes ih =>
    cases other with
    | nil => cases length
    | cons b other =>
      have tails : bytes.length = other.length := Nat.succ.inj length
      have left := fromBigEndian_lt bytes
      have right := fromBigEndian_lt other
      rw [fromBigEndian_cons, fromBigEndian_cons, ← tails] at same
      rw [← tails] at right
      have leading := congrArg (· / span bytes.length) same
      simp only [Nat.mul_comm _ (span bytes.length), Nat.mul_add_div (span_pos bytes.length),
        Nat.div_eq_of_lt left, Nat.div_eq_of_lt right, Nat.add_zero] at leading
      rw [leading, Nat.add_left_cancel_iff] at same
      rw [UInt8.toNat_inj.mp leading, ih tails same]

/-- A row of bytes is the row of the number that it spells. -/
theorem bigEndian_fromBigEndian (bytes : List UInt8) :
    bigEndian bytes.length (fromBigEndian bytes) = bytes := by
  apply eq_of_fromBigEndian (length_bigEndian ..)
  rw [fromBigEndian_bigEndian (fromBigEndian_lt bytes)]

/-- Of two rows of one length, that of the smaller number precedes. -/
private theorem bigEndian_precedes_mod (less : m % span count < n % span count) :
    Precedes (bigEndian count m) (bigEndian count n) := by
  induction count with
  | zero => simp [span, Nat.mod_one] at less
  | succ count ih =>
    rw [mod_span_succ, mod_span_succ] at less
    have left := Nat.mod_lt m (span_pos count)
    have right := Nat.mod_lt n (span_pos count)
    rcases Nat.lt_trichotomy (m / span count % 256) (n / span count % 256) with
      smaller | same | greater
    · exact .here (UInt8.lt_iff_toNat_lt.mpr (by simpa using smaller))
    · have digit : UInt8.ofNat (m / span count) = UInt8.ofNat (n / span count) :=
        UInt8.toNat_inj.mp (by simpa using same)
      rw [bigEndian, bigEndian, digit]
      exact .there (ih (by rw [same] at less; omega))
    · have step := Nat.mul_le_mul_right (span count) (Nat.succ_le_of_lt greater)
      rw [Nat.succ_mul] at step
      omega

theorem bigEndian_precedes (less : m < n) (fits : n < span count) :
    Precedes (bigEndian count m) (bigEndian count n) := by
  apply bigEndian_precedes_mod
  rwa [Nat.mod_eq_of_lt fits, Nat.mod_eq_of_lt (Nat.lt_trans less fits)]

/-- A number has at most so many digits just if it lies in their span. -/
theorem byteLength_le_iff (n count : Nat) : byteLength n ≤ count ↔ n < span count := by
  induction count generalizing n with
  | zero =>
    rw [byteLength]
    split
    · rename_i zero
      simp [zero, span]
    · simp [span]
      omega
  | succ count ih =>
    rw [byteLength, span_succ]
    split
    · rename_i zero
      have := span_pos count
      simp only [zero, Nat.zero_le, true_iff]
      omega
    · rw [Nat.add_le_add_iff_right, ih]
      omega

theorem lt_span_byteLength (n : Nat) : n < span (byteLength n) :=
  (byteLength_le_iff n _).mp (Nat.le_refl _)

theorem byteLength_mono (less : m ≤ n) : byteLength m ≤ byteLength n :=
  (byteLength_le_iff m _).mpr (Nat.lt_of_le_of_lt less (lt_span_byteLength n))

theorem byteLength_pos (positive : 0 < n) : 0 < byteLength n := by
  rw [Nat.pos_iff_ne_zero]
  intro none
  have small := lt_span_byteLength n
  rw [none, span] at small
  omega

/-- A number takes all the digits of a row just if the leading one is not zero. -/
theorem byteLength_leading_iff (digit : Nat) (small : digit < 256) (rest : n < span count) :
    byteLength (digit * span count + n) = count + 1 ↔ digit ≠ 0 := by
  cases digit with
  | zero =>
    have fewer := (byteLength_le_iff n count).mpr rest
    rw [Nat.zero_mul, Nat.zero_add]
    omega
  | succ digit =>
    have many := byteLength_le_iff ((digit + 1) * span count + n) count
    have most := byteLength_le_iff ((digit + 1) * span count + n) (count + 1)
    have room := Nat.mul_le_mul_right (span count) (Nat.succ_le_of_lt small)
    rw [span_succ] at most
    rw [Nat.succ_mul] at many most room ⊢
    rw [Nat.succ_mul] at room
    omega

theorem byteLength_fromBigEndian_iff (byte : UInt8) (bytes : List UInt8) :
    byteLength (fromBigEndian (byte :: bytes)) = bytes.length + 1 ↔ byte ≠ 0 := by
  rw [fromBigEndian_cons, byteLength_leading_iff _ byte.toNat_lt (fromBigEndian_lt bytes)]
  exact not_congr (UInt8.toNat_inj (b := 0))

/-- Of a negative number the digits of the complement count, so that a leading byte of ones is
what can be left out. -/
theorem byteLength_complement_iff (byte : UInt8) (bytes : List UInt8) :
    byteLength (span (bytes.length + 1) - 1 - fromBigEndian (byte :: bytes)) = bytes.length + 1 ↔
      byte ≠ 0xff := by
  have small := byte.toNat_lt
  have rest := fromBigEndian_lt bytes
  have complement : span (bytes.length + 1) - 1 - fromBigEndian (byte :: bytes) =
      (255 - byte.toNat) * span bytes.length + (span bytes.length - 1 - fromBigEndian bytes) := by
    have digit := Nat.mul_le_mul_right (span bytes.length) (Nat.le_of_lt_succ small)
    rw [fromBigEndian_cons, span_succ, Nat.sub_mul]
    omega
  have ones : byte = 0xff ↔ byte.toNat = 255 := UInt8.toNat_inj.symm
  rw [complement, byteLength_leading_iff _ (by omega) (by omega), ne_eq, ne_eq, ones]
  omega

/-- The payload of a number past the two-byte class holds its distance. -/
theorem lt_span_payloadLength (distance : Nat) : distance < span (payloadLength distance) :=
  Nat.lt_of_lt_of_le (lt_span_byteLength distance) (span_mono (Nat.le_max_right 1 _))

theorem payloadLength_mono (less : m ≤ n) : payloadLength m ≤ payloadLength n := by
  have := byteLength_mono less
  simp only [payloadLength]
  omega

end OrderPack.Varint
