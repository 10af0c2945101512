import OrderPack.Proofs.Varint.RoundTrip

/-! An integer cut short is found to be incomplete, at whatever byte it is cut. The lead
byte tells how much is to come, so the decoder asks for more before it could take the
shorter payload for that of another integer or find fault with it. -/
namespace OrderPack.Varint

/-- The bytes ran out before the integer was complete. -/
def Starved (answer : Except Error α) : Prop := ∃ lack, answer = .error (.truncated lack)

theorem Starved.bind {answer : Except Error α} (starved : Starved answer)
    (next : α → Except Error β) : Starved (answer.bind next) := by
  obtain ⟨lack, rfl⟩ := starved
  exact ⟨lack, rfl⟩

theorem Starved.map {answer : Except Error α} (starved : Starved answer) (make : α → β) :
    Starved (answer.map make) := by
  obtain ⟨lack, rfl⟩ := starved
  exact ⟨lack, rfl⟩

theorem lead_starved (offset : Nat) {rest : List UInt8} (short : rest.length < 1) :
    Starved (lead ⟨offset, rest⟩) := by
  rw [List.length_eq_zero_iff.mp (Nat.lt_one_iff.mp short)]
  exact ⟨_, rfl⟩

theorem payload_starved (start offset : Nat) {rest : List UInt8} (short : rest.length < count) :
    Starved (payload start ⟨offset, rest⟩ count) := by
  refine ⟨⟨start, count - rest.length⟩, ?_⟩
  rw [payload, Reader.take, if_neg (Nat.not_le.mpr short)]

/-- Each lead byte calls for all the digits of its form. -/
theorem decodeNat_starved (offset : Nat) (small : n < UInt64.size) {rest : List UInt8}
    (short : rest.length < (Form.ofNat n).length) :
    Starved (decodeNat ⟨offset, UInt8.ofNat (Form.ofNat n).lead :: rest⟩) := by
  have valid := Form.ofNat_valid small
  have mark := valid.toNat_lead
  generalize UInt8.ofNat (Form.ofNat n).lead = byte at mark ⊢
  rcases Form.ofNat_cases n with ⟨_, form⟩ | ⟨_, medium, form⟩ | ⟨_, form⟩ <;>
  simp only [form] at valid mark short
  · exact absurd short (Nat.not_lt_zero _)
  · rw [decodeNat_medium _ _ (by omega) (by omega)]
    exact (lead_starved _ short).map _
  · have digits : payloadLength (n - 8256) ≤ 8 := valid.length
    have due : rest.length < byte.toNat - 0xe0 := by omega
    rw [decodeNat_long _ _ (by omega) (by omega)]
    exact (payload_starved _ _ due).bind _

theorem decodeSigned_starved_of_negative {x : Int} (offset : Nat)
    (large : -(UInt64.size / 2 : Nat) ≤ x) (negative : x < 0) {rest : List UInt8}
    (short : rest.length < (Form.ofNegative x).length) :
    Starved (decodeSigned ⟨offset, UInt8.ofNat (Form.ofNegative x).lead :: rest⟩) := by
  have valid := Form.ofNegative_valid large negative
  have mark := valid.toNat_lead
  generalize UInt8.ofNat (Form.ofNegative x).lead = byte at mark ⊢
  rcases Form.ofNegative_cases x with ⟨long, form⟩ | ⟨_, medium, form⟩ | ⟨_, form⟩ <;>
  simp only [form] at valid mark short
  · have digits : byteLength (-x - 1).toNat ≤ 8 := valid.length
    have digit := byteLength_pos (n := (-x - 1).toNat) (by omega)
    have due : rest.length < 0x18 - byte.toNat := by omega
    rw [decodeSigned_long _ _ (by omega) (by omega)]
    exact (payload_starved _ _ due).map _
  · rw [decodeSigned_medium _ _ (by omega) (by omega)]
    exact (lead_starved _ short).map _
  · exact absurd short (Nat.not_lt_zero _)

/-- Cut at its front a form has no lead byte, and cut anywhere behind it too few digits. -/
theorem Form.starved_take {form : Form} {decode : Reader → Except Error α} {offset : Nat}
    (empty : Starved (decode ⟨offset, []⟩))
    (due : ∀ rest : List UInt8, rest.length < form.length →
      Starved (decode ⟨offset, UInt8.ofNat form.lead :: rest⟩))
    (inside : cut < form.bytes.length) : Starved (decode ⟨offset, form.bytes.take cut⟩) := by
  rw [bytes] at inside ⊢
  cases cut with
  | zero => exact empty
  | succ cut =>
    refine due _ ?_
    rw [List.length_cons, length_bigEndian] at inside
    rw [List.length_take, length_bigEndian]
    omega

theorem decodeNat_take (offset : Nat) (small : n < UInt64.size)
    (inside : cut < (encodeNat n).length) :
    Starved (decodeNat ⟨offset, (encodeNat n).take cut⟩) := by
  rw [encodeNat_eq_bytes] at inside ⊢
  exact Form.starved_take ⟨_, rfl⟩ (fun _ => decodeNat_starved offset small) inside

theorem decodeUnsigned_take (offset : Nat) (x : UInt64)
    (inside : cut < (encodeUnsigned x).length) :
    Starved (decodeUnsigned ⟨offset, (encodeUnsigned x).take cut⟩) :=
  (decodeNat_take offset x.toNat_lt inside).bind _

theorem decodeSigned_take (offset : Nat) (x : Int64) (inside : cut < (encodeSigned x).length) :
    Starved (decodeSigned ⟨offset, (encodeSigned x).take cut⟩) := by
  have lower := x.le_toInt
  have upper := x.toInt_lt
  unfold encodeSigned at inside ⊢
  split at inside
  · rw [if_pos ‹_›]
    rw [encodeNegative_eq_bytes] at inside ⊢
    refine Form.starved_take ⟨_, rfl⟩ (fun _ => ?_) inside
    exact decodeSigned_starved_of_negative offset (by simp only [UInt64.size]; omega) ‹_›
  · rw [if_neg ‹_›]
    rw [encodeNat_eq_bytes] at inside ⊢
    have small : x.toInt.toNat < UInt64.size := by simp only [UInt64.size]; omega
    refine Form.starved_take ⟨_, rfl⟩ (fun _ short => ?_) inside
    have mark := (Form.ofNat_valid small).toNat_lead
    rw [decodeSigned_positive _ _ (by rw [mark]; exact Form.le_ofNat_lead _)]
    exact (decodeNat_starved offset small short).bind _

end OrderPack.Varint
