import OrderPack.Proofs.Varint.Form

/-! Encoded integers sort as the integers do. Two different integers differ within
their encodings, before either of these ends, so the order stands whatever follows
them; in particular no encoding begins another. -/
namespace OrderPack.Varint
open ByteOrder

namespace Form

/-- The order in which forms sort: by the lead, then by payloads of one length. -/
def Below (first second : Form) : Prop :=
  first.lead < second.lead ∨
    first.lead = second.lead ∧ first.length = second.length ∧ first.payload < second.payload

theorem Below.precedes {first second : Form} (below : Below first second) (valid : second.Valid) :
    Precedes first.bytes second.bytes := by
  rcases below with smaller | ⟨lead, length, payload⟩
  · apply Precedes.here
    rw [UInt8.lt_iff_toNat_lt, UInt8.toNat_ofNat', UInt8.toNat_ofNat']
    have bound := valid.lead
    omega
  · rw [bytes, bytes, lead, length]
    exact .there (bigEndian_precedes payload valid.payload)

theorem ofNat_below (less : m < n) : Below (ofNat m) (ofNat n) := by
  have digits := payloadLength_mono (show m - 8256 ≤ n - 8256 by omega)
  have positive : 1 ≤ payloadLength (n - 8256) := Nat.le_max_left 1 _
  rcases ofNat_cases m with ⟨_, first⟩ | ⟨_, _, first⟩ | ⟨_, first⟩ <;>
  rcases ofNat_cases n with ⟨_, second⟩ | ⟨_, _, second⟩ | ⟨_, second⟩ <;>
  simp only [Below, first, second, true_and] <;> omega

theorem ofNegative_below {x y : Int} (less : x < y) (negative : y < 0)
    (large : -(UInt64.size / 2 : Nat) ≤ x) : Below (ofNegative x) (ofNegative y) := by
  have digits := byteLength_mono (show (-y - 1).toNat ≤ (-x - 1).toNat by omega)
  have most : byteLength (-x - 1).toNat ≤ 8 :=
    (byteLength_le_iff _ 8).mpr (by simp only [UInt64.size, span] at large ⊢; omega)
  have fits := lt_span_byteLength (-x - 1).toNat
  -- The greater number drops more of its bytes, or the payloads have one length.
  rcases Nat.lt_or_eq_of_le digits with fewer | same <;>
  rcases ofNegative_cases x with ⟨_, first⟩ | ⟨_, _, first⟩ | ⟨_, first⟩ <;>
  rcases ofNegative_cases y with ⟨_, second⟩ | ⟨_, _, second⟩ | ⟨_, second⟩ <;>
  simp only [Below, *, true_and] <;> omega

theorem ofInt_below {x y : Int} (less : x < y) (large : -(UInt64.size / 2 : Nat) ≤ x) :
    Below (ofInt x) (ofInt y) := by
  unfold ofInt
  split <;> split
  · exact ofNegative_below less ‹_› large
  · have small := ofNegative_lead_lt ‹x < 0›
    have great := le_ofNat_lead y.toNat
    exact .inl (Nat.lt_of_lt_of_le small great)
  · omega
  · exact ofNat_below (by omega)

end Form

/-- The encodings of two integers differ before either of them ends. -/
theorem encodeInt_precedes {x y : Int} (left : InWord x) (right : InWord y) (less : x < y) :
    Precedes (encodeInt x) (encodeInt y) := by
  rw [encodeInt_eq_bytes, encodeInt_eq_bytes]
  exact (Form.ofInt_below less left.1).precedes (Form.ofInt_valid right)

/-- Encoded integers sort as the integers do, and equal ones leave the order to what
follows them. -/
theorem compare_encodeInt_append {x y : Int} (left : InWord x) (right : InWord y)
    (s t : List UInt8) :
    compare (encodeInt x ++ s) (encodeInt y ++ t) = (compare x y).then (compare s t) :=
  compare_append_of_precedes encodeInt InWord encodeInt_precedes left right s t

/-- No encoding begins another. -/
theorem encodeInt_prefix_iff {x y : Int} (left : InWord x) (right : InWord y) :
    encodeInt x <+: encodeInt y ↔ x = y := by
  constructor
  · intro begins
    rcases Int.lt_trichotomy x y with less | same | greater
    · exact absurd begins (encodeInt_precedes left right less).neither_begins.1
    · exact same
    · exact absurd begins (encodeInt_precedes right left greater).neither_begins.2
  · rintro rfl
    exact List.prefix_rfl

/-- Numbers in a fixed number of bytes sort likewise. -/
theorem compare_bigEndian_append (left : m < span count) (right : n < span count)
    (s t : List UInt8) :
    compare (bigEndian count m ++ s) (bigEndian count n ++ t) =
      (compare m n).then (compare s t) := by
  rw [← compare_natCast]
  refine compare_append_of_precedes (fun x => bigEndian count x.toNat)
    (fun x => 0 ≤ x ∧ x.toNat < span count) ?_ ⟨Int.natCast_nonneg m, left⟩
    ⟨Int.natCast_nonneg n, right⟩ s t
  rintro x y ⟨positive, _⟩ ⟨_, fits⟩ less
  exact bigEndian_precedes (by omega) fits

theorem encodeSigned_eq_encodeInt (x : Int64) : encodeSigned x = encodeInt x.toInt := rfl

theorem encodeUnsigned_eq_encodeInt (x : UInt64) : encodeUnsigned x = encodeInt x.toNat := by
  rw [encodeInt, if_neg (by omega), Int.toNat_natCast, encodeUnsigned]

theorem inWord_toInt (x : Int64) : InWord x.toInt := by
  have lower := x.le_toInt
  have upper := x.toInt_lt
  constructor <;> simp only [UInt64.size] <;> omega

theorem inWord_toNat (x : UInt64) : InWord x.toNat := by
  have upper := x.toNat_lt
  constructor <;> simp only [UInt64.size] <;> omega

theorem compare_encodeInt {x y : Int} (left : InWord x) (right : InWord y) :
    compare (encodeInt x) (encodeInt y) = compare x y := by
  have whole := compare_encodeInt_append left right [] []
  rwa [List.append_nil, List.append_nil, Std.ReflOrd.compare_self, Ordering.then_eq] at whole

theorem encodeInt_lt_iff {x y : Int} (left : InWord x) (right : InWord y) :
    encodeInt x < encodeInt y ↔ x < y := by
  rw [← compare_eq_lt_iff, compare_encodeInt left right, Std.compare_eq_lt]

theorem encodeInt_inj {x y : Int} (left : InWord x) (right : InWord y) :
    encodeInt x = encodeInt y ↔ x = y := by
  rw [← Std.LawfulEqOrd.compare_eq_iff_eq, compare_encodeInt left right,
    Std.LawfulEqOrd.compare_eq_iff_eq]

/-- The bytes of two words compare as the words do, signed or unsigned and across all
classes: both encoders are strictly monotone and give no two words the same bytes. -/
theorem encoded_words_sort_as_numbers :
    (∀ x y : Int64, compare (encodeSigned x) (encodeSigned y) = compare x.toInt y.toInt ∧
      (encodeSigned x < encodeSigned y ↔ x < y) ∧ (encodeSigned x = encodeSigned y ↔ x = y)) ∧
    (∀ x y : UInt64, compare (encodeUnsigned x) (encodeUnsigned y) = compare x.toNat y.toNat ∧
      (encodeUnsigned x < encodeUnsigned y ↔ x < y) ∧
      (encodeUnsigned x = encodeUnsigned y ↔ x = y)) := by
  constructor
  · intro x y
    have left := inWord_toInt x
    have right := inWord_toInt y
    simp only [encodeSigned_eq_encodeInt]
    refine ⟨compare_encodeInt left right, ?_, ?_⟩
    · rw [encodeInt_lt_iff left right, Int64.lt_iff_toInt_lt]
    · rw [encodeInt_inj left right, Int64.toInt_inj]
  · intro x y
    have left := inWord_toNat x
    have right := inWord_toNat y
    simp only [encodeUnsigned_eq_encodeInt]
    refine ⟨?_, ?_, ?_⟩
    · rw [compare_encodeInt left right, compare_natCast]
    · rw [encodeInt_lt_iff left right, UInt64.lt_iff_toNat_lt, Int.ofNat_lt]
    · rw [encodeInt_inj left right, Int.ofNat_inj, UInt64.toNat_inj]

end OrderPack.Varint
