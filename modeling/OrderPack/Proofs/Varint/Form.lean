import OrderPack.Proofs.Varint.Digits

/-! Every integer is written as a lead byte and a row of digits. This is the rule the
encoders of both signs follow, and the place where their six classes meet: from one
integer to a greater one either the lead byte grows, or it stays with the length of
the payload, and the payload grows. -/
namespace OrderPack.Varint
open ByteOrder

/-- The number in the lead byte, and the length and value of the payload. -/
structure Form where
  lead : Nat
  length : Nat
  payload : Nat

namespace Form

/-- The bytes of a form. -/
def bytes (form : Form) : List UInt8 :=
  UInt8.ofNat form.lead :: bigEndian form.length form.payload

/-- The form of a number that is not negative. -/
def ofNat (n : Nat) : Form :=
  if n ≤ shortMax then ⟨0x80 + n, 0, 0⟩
  else if n ≤ mediumMax then ⟨0xc0 + (n - 64) / 256, 1, (n - 64) % 256⟩
  else ⟨0xe0 + payloadLength (n - 8256), payloadLength (n - 8256), n - 8256⟩

/-- The form of a negative number. -/
def ofNegative (x : Int) : Form :=
  if x < mediumMin then
    let length := byteLength (-x - 1).toNat
    ⟨0x10 + (8 - length), length, (span length + x).toNat⟩
  else if x < shortMin then
    ⟨0x20 + (x - mediumMin).toNat / 256, 1, (x - mediumMin).toNat % 256⟩
  else ⟨0x40 + (x - shortMin).toNat, 0, 0⟩

/-- The form of an integer. -/
def ofInt (x : Int) : Form := if x < 0 then ofNegative x else ofNat x.toNat

/-- The lead is a byte, the payload fits its length, and no form has more than eight
digits. -/
structure Valid (form : Form) : Prop where
  lead : form.lead < 256
  length : form.length ≤ 8
  payload : form.payload < span form.length

theorem Valid.toNat_lead {form : Form} (valid : form.Valid) :
    (UInt8.ofNat form.lead).toNat = form.lead := by
  rw [UInt8.toNat_ofNat', Nat.mod_eq_of_lt valid.lead]

end Form

private theorem bigEndian_one_mod (n : Nat) : bigEndian 1 (n % 256) = bigEndian 1 n := by
  simp only [bigEndian, span, Nat.div_one, List.cons.injEq, and_true]
  apply UInt8.toNat_inj.mp
  simp

/-- The three classes that are not negative. -/
theorem Form.ofNat_cases (n : Nat) :
    n ≤ 63 ∧ ofNat n = ⟨0x80 + n, 0, 0⟩ ∨
    63 < n ∧ n ≤ 8255 ∧ ofNat n = ⟨0xc0 + (n - 64) / 256, 1, (n - 64) % 256⟩ ∨
    8255 < n ∧
      ofNat n = ⟨0xe0 + payloadLength (n - 8256), payloadLength (n - 8256), n - 8256⟩ := by
  by_cases short : n ≤ 63
  · exact .inl ⟨short, if_pos short⟩
  · by_cases medium : n ≤ 8255
    · exact .inr (.inl ⟨by omega, medium, (if_neg short).trans (if_pos medium)⟩)
    · exact .inr (.inr ⟨by omega, (if_neg short).trans (if_neg medium)⟩)

/-- The three negative classes. -/
theorem Form.ofNegative_cases (x : Int) :
    x < -8256 ∧ ofNegative x = ⟨0x10 + (8 - byteLength (-x - 1).toNat),
      byteLength (-x - 1).toNat, (span (byteLength (-x - 1).toNat) + x).toNat⟩ ∨
    -8256 ≤ x ∧ x < -64 ∧
      ofNegative x = ⟨0x20 + (x + 8256).toNat / 256, 1, (x + 8256).toNat % 256⟩ ∨
    -64 ≤ x ∧ ofNegative x = ⟨0x40 + (x + 64).toNat, 0, 0⟩ := by
  by_cases long : x < -8256
  · exact .inl ⟨long, if_pos long⟩
  · by_cases medium : x < -64
    · exact .inr (.inl ⟨by omega, medium, (if_neg long).trans (if_pos medium)⟩)
    · exact .inr (.inr ⟨by omega, (if_neg long).trans (if_neg medium)⟩)

/-- Every negative lead is smaller than every other. -/
theorem Form.ofNegative_lead_lt {x : Int} (negative : x < 0) : (ofNegative x).lead < 0x80 := by
  rcases ofNegative_cases x with ⟨_, form⟩ | ⟨_, _, form⟩ | ⟨_, form⟩ <;>
  rw [form] <;> simp only <;> omega

theorem Form.le_ofNat_lead (n : Nat) : 0x80 ≤ (ofNat n).lead := by
  rcases ofNat_cases n with ⟨_, form⟩ | ⟨_, _, form⟩ | ⟨_, form⟩ <;>
  rw [form] <;> simp only <;> omega

theorem encodeNat_eq_bytes (n : Nat) : encodeNat n = (Form.ofNat n).bytes := by
  unfold encodeNat Form.ofNat
  split
  · rfl
  · split
    · simp only [Form.bytes, bigEndian_one_mod]
    · rfl

theorem encodeNegative_eq_bytes (x : Int) : encodeNegative x = (Form.ofNegative x).bytes := by
  unfold encodeNegative Form.ofNegative
  split
  · rfl
  · split
    · simp only [Form.bytes, bigEndian_one_mod]
    · rfl

/-- The integers of a machine word, be it read as signed or as unsigned. -/
def InWord (x : Int) : Prop := -(UInt64.size / 2 : Nat) ≤ x ∧ x < (UInt64.size : Nat)

/-- The encoding of an integer, whichever of the two encoders it is given to. -/
def encodeInt (x : Int) : List UInt8 :=
  if x < 0 then encodeNegative x else encodeNat x.toNat

theorem encodeInt_eq_bytes (x : Int) : encodeInt x = (Form.ofInt x).bytes := by
  unfold encodeInt Form.ofInt
  split
  · exact encodeNegative_eq_bytes x
  · exact encodeNat_eq_bytes x.toNat

theorem toNat_lt_span (x : UInt64) : x.toNat < span 8 := x.toNat_lt

/-- The digits of what is left of a word never fill more than eight bytes. -/
private theorem byteLength_le_eight (small : n < UInt64.size) : byteLength n ≤ 8 :=
  (byteLength_le_iff n 8).mpr small

theorem Form.ofNat_valid (small : n < UInt64.size) : (ofNat n).Valid := by
  have digits := byteLength_le_eight (Nat.lt_of_le_of_lt (Nat.sub_le n 8256) small)
  have fits := lt_span_payloadLength (n - 8256)
  unfold ofNat
  split
  · rename_i short
    exact ⟨by simp only [shortMax] at short ⊢; omega, Nat.zero_le _, Nat.one_pos⟩
  · split
    · rename_i medium
      refine ⟨?_, Nat.le_of_lt (by decide : 1 < 8), Nat.mod_lt _ (by decide)⟩
      simp only [mediumMax] at medium ⊢
      omega
    · refine ⟨?_, ?_, fits⟩ <;> simp only [payloadLength] <;> omega

theorem Form.ofNegative_valid {x : Int} (large : -(UInt64.size / 2 : Nat) ≤ x)
    (negative : x < 0) : (ofNegative x).Valid := by
  have small : (-x - 1).toNat < UInt64.size := by simp only [UInt64.size] at large ⊢; omega
  have digits := byteLength_le_eight small
  have fits := lt_span_byteLength (-x - 1).toNat
  unfold ofNegative
  split
  · refine ⟨?_, digits, ?_⟩ <;> simp only <;> omega
  · split
    · rename_i medium
      refine ⟨?_, Nat.le_of_lt (by decide : 1 < 8), Nat.mod_lt _ (by decide)⟩
      simp only [mediumMin, shortMin] at medium ⊢
      omega
    · rename_i short
      refine ⟨?_, Nat.zero_le _, Nat.one_pos⟩
      simp only [shortMin] at short ⊢
      omega

theorem Form.ofInt_valid {x : Int} (word : InWord x) : (ofInt x).Valid := by
  unfold ofInt
  split
  · exact ofNegative_valid word.1 ‹_›
  · exact ofNat_valid (by have := word.2; omega)

end OrderPack.Varint
