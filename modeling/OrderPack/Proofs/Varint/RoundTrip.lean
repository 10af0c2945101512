import OrderPack.Proofs.Reader
import OrderPack.Proofs.Varint.Form
import OrderPack.Varint.Decode

/-! What an encoder writes is read back as the same integer, whatever follows it, and
the size given for an integer is the length of its encoding. -/
namespace OrderPack.Varint

/-- The bytes of a payload are read, and nothing behind them. -/
theorem payload_append (start offset : Nat) (digits rest : List UInt8) :
    payload start ⟨offset, digits ++ rest⟩ digits.length =
      .ok (fromBigEndian digits, ⟨offset + digits.length, rest⟩) := by
  rw [payload, Reader.take_append]

theorem payload_bigEndian (start offset : Nat) (rest : List UInt8) (fits : n < span count) :
    payload start ⟨offset, bigEndian count n ++ rest⟩ count =
      .ok (n, ⟨offset + count, rest⟩) := by
  have read := payload_append start offset (bigEndian count n) rest
  rwa [length_bigEndian, fromBigEndian_bigEndian fits] at read

/-- A check passed after reading a pair. It is stated for every check, since the one on
the range of words does not reduce well. -/
theorem checked_pair {read : Except ε (α × β)} (found : read = .ok (a, b))
    (passed : α → Prop) [DecidablePred passed] (holds : passed a) (error : ε) (value : α → γ) :
    (read.bind fun (a, b) => if passed a then .ok (value a, b) else .error error) =
      .ok (value a, b) := by
  subst found
  exact if_pos holds

theorem refused_pair {read : Except ε (α × β)} (found : read = .ok (a, b))
    (passed : α → Prop) [DecidablePred passed] (fails : ¬passed a) (error : ε) (value : α → γ) :
    (read.bind fun (a, b) => if passed a then .ok (value a, b) else .error error) =
      .error error := by
  subst found
  exact if_neg fails

section Classes
variable {byte : UInt8} (offset : Nat) (rest : List UInt8)

theorem decodeNat_short (lower : 0x80 ≤ byte.toNat) (upper : byte.toNat < 0xc0) :
    decodeNat ⟨offset, byte :: rest⟩ = .ok (byte.toNat - 0x80, ⟨offset + 1, rest⟩) := by
  change (if byte.toNat < 0x80 then _ else if byte.toNat < 0xc0 then _ else _) = _
  rw [if_neg (by omega), if_pos upper]

theorem decodeNat_medium (lower : 0xc0 ≤ byte.toNat) (upper : byte.toNat < 0xe0) :
    decodeNat ⟨offset, byte :: rest⟩ =
      (lead ⟨offset + 1, rest⟩).map fun (low, after) =>
        (64 + (byte.toNat - 0xc0) * 256 + low.toNat, after) := by
  change (if byte.toNat < 0x80 then _ else if byte.toNat < 0xc0 then _
    else if byte.toNat < 0xe0 then _ else _) = _
  rw [if_neg (by omega), if_neg (by omega), if_pos upper]
  rfl

theorem decodeNat_long (lower : 0xe0 ≤ byte.toNat) (upper : byte.toNat ≤ 0xe8) :
    decodeNat ⟨offset, byte :: rest⟩ =
      (payload offset ⟨offset + 1, rest⟩ (byte.toNat - 0xe0)).bind fun (distance, after) =>
        if distance + 8256 < UInt64.size then .ok (distance + 8256, after)
        else .error (.wordOverflow offset) := by
  change (if byte.toNat < 0x80 then _ else if byte.toNat < 0xc0 then _
    else if byte.toNat < 0xe0 then _ else if byte.toNat < 0xf0 then
      if 8 < byte.toNat - 0xe0 then _ else _ else _) = _
  rw [if_neg (by omega), if_neg (by omega), if_neg (by omega), if_pos (by omega),
    if_neg (by omega)]
  rfl

theorem decodeSigned_long (lower : 0x10 ≤ byte.toNat) (upper : byte.toNat < 0x18) :
    decodeSigned ⟨offset, byte :: rest⟩ =
      (payload offset ⟨offset + 1, rest⟩ (0x18 - byte.toNat)).map fun (n, after) =>
        (Int64.ofInt (n - span (0x18 - byte.toNat)), after) := by
  have digits : 8 - (byte.toNat - 0x10) = 0x18 - byte.toNat := by omega
  change (if 0x10 ≤ byte.toNat ∧ byte.toNat < 0x20 then
    if 8 ≤ byte.toNat - 0x10 then _ else _ else _) = _
  rw [if_pos (by omega), if_neg (by omega), digits]
  rfl

theorem decodeSigned_medium (lower : 0x20 ≤ byte.toNat) (upper : byte.toNat < 0x40) :
    decodeSigned ⟨offset, byte :: rest⟩ =
      (lead ⟨offset + 1, rest⟩).map fun (low, after) =>
        (Int64.ofInt (mediumMin + (byte.toNat - 0x20) * 256 + low.toNat), after) := by
  change (if 0x10 ≤ byte.toNat ∧ byte.toNat < 0x20 then _
    else if 0x20 ≤ byte.toNat ∧ byte.toNat < 0x40 then _ else _) = _
  rw [if_neg (by omega), if_pos (by omega)]
  rfl

theorem decodeSigned_short (lower : 0x40 ≤ byte.toNat) (upper : byte.toNat < 0x80) :
    decodeSigned ⟨offset, byte :: rest⟩ =
      .ok (Int64.ofInt (shortMin + (byte.toNat - 0x40)), ⟨offset + 1, rest⟩) := by
  change (if 0x10 ≤ byte.toNat ∧ byte.toNat < 0x20 then _
    else if 0x20 ≤ byte.toNat ∧ byte.toNat < 0x40 then _
    else if 0x40 ≤ byte.toNat ∧ byte.toNat < 0x80 then _ else _) = _
  rw [if_neg (by omega), if_neg (by omega), if_pos (by omega)]

/-- All that is not of a negative class is read as if unsigned, or found at fault as such. -/
theorem decodeSigned_other (other : byte.toNat < 0x10 ∨ 0x80 ≤ byte.toNat) :
    decodeSigned ⟨offset, byte :: rest⟩ =
      (decodeNat ⟨offset, byte :: rest⟩).bind fun (n, after) =>
        if n < UInt64.size / 2 then .ok (Int64.ofInt n, after)
        else .error (.beyondSigned offset) := by
  change (if 0x10 ≤ byte.toNat ∧ byte.toNat < 0x20 then _
    else if 0x20 ≤ byte.toNat ∧ byte.toNat < 0x40 then _
    else if 0x40 ≤ byte.toNat ∧ byte.toNat < 0x80 then _ else _) = _
  rw [if_neg (by omega), if_neg (by omega), if_neg (by omega)]
  rfl

theorem decodeSigned_positive (lower : 0x80 ≤ byte.toNat) :
    decodeSigned ⟨offset, byte :: rest⟩ =
      (decodeNat ⟨offset, byte :: rest⟩).bind fun (n, after) =>
        if n < UInt64.size / 2 then .ok (Int64.ofInt n, after)
        else .error (.beyondSigned offset) :=
  decodeSigned_other offset rest (.inr lower)

end Classes

theorem decodeNat_encodeNat (offset : Nat) (rest : List UInt8) (small : n < UInt64.size) :
    decodeNat ⟨offset, encodeNat n ++ rest⟩ =
      .ok (n, ⟨offset + (encodeNat n).length, rest⟩) := by
  have valid := Form.ofNat_valid small
  have mark := valid.toNat_lead
  rw [encodeNat_eq_bytes, Form.bytes, List.length_cons, length_bigEndian, List.cons_append]
  generalize UInt8.ofNat (Form.ofNat n).lead = byte at mark ⊢
  rcases Form.ofNat_cases n with ⟨short, form⟩ | ⟨above, medium, form⟩ | ⟨long, form⟩ <;>
  simp only [form] at valid mark ⊢
  · rw [decodeNat_short _ _ (by omega) (by omega), mark, Nat.add_sub_cancel_left]
    rfl
  · rw [decodeNat_medium _ _ (by omega) (by omega), mark]
    have low : (UInt8.ofNat ((n - 64) % 256)).toNat = (n - 64) % 256 := by simp
    simp only [bigEndian, span, Nat.div_one, List.cons_append, List.nil_append, lead, Except.map, low]
    congr 2
    omega
  · have digits : payloadLength (n - 8256) ≤ 8 := valid.length
    have whole : n - 8256 + 8256 = n := by omega
    have length : byte.toNat - 0xe0 = payloadLength (n - 8256) := by omega
    have word : n - 8256 + 8256 < UInt64.size := by omega
    have read : payload offset
        ⟨offset + 1, bigEndian (payloadLength (n - 8256)) (n - 8256) ++ rest⟩
        (byte.toNat - 0xe0) =
          .ok (n - 8256, ⟨offset + 1 + payloadLength (n - 8256), rest⟩) := by
      rw [length]
      exact payload_bigEndian _ _ _ (lt_span_payloadLength _)
    have decoded := checked_pair read (fun distance => distance + 8256 < UInt64.size) word
      (.wordOverflow offset) (· + 8256)
    rw [decodeNat_long _ _ (by omega) (by omega), decoded, whole, Nat.add_assoc, Nat.add_comm 1]

theorem length_encodeNat (n : Nat) : (encodeNat n).length = sizeNat n := by
  rw [encodeNat_eq_bytes, Form.bytes, List.length_cons, length_bigEndian, sizeNat]
  rcases Form.ofNat_cases n with ⟨short, form⟩ | ⟨above, medium, form⟩ | ⟨long, form⟩ <;>
  simp only [form]
  · exact (if_pos short).symm
  · have notShort : ¬n ≤ shortMax := Nat.not_le.mpr above
    have twoBytes : n ≤ mediumMax + 1 := Nat.le_succ_of_le medium
    rw [if_neg notShort, if_pos twoBytes]
  · have notShort : ¬n ≤ shortMax := Nat.not_le.mpr (Nat.lt_trans (by decide) long)
    rw [if_neg notShort, payloadLength]
    -- At the seam the distance is zero and takes a digit all the same.
    rcases Nat.eq_or_lt_of_le long with seam | beyond
    · subst seam
      simp [byteLength, mediumMax]
    · have twoBytes : ¬n ≤ mediumMax + 1 := Nat.not_le.mpr beyond
      have digits := byteLength_pos (n := n - 8256) (by omega)
      rw [if_neg twoBytes]
      omega

theorem length_encodeUnsigned (x : UInt64) : (encodeUnsigned x).length = sizeUnsigned x :=
  length_encodeNat x.toNat

theorem length_encodeSigned (x : Int64) : (encodeSigned x).length = sizeSigned x := by
  unfold encodeSigned sizeSigned
  by_cases negative : x.toInt < 0
  · rw [if_pos negative, encodeNegative_eq_bytes, Form.bytes, List.length_cons, length_bigEndian]
    rcases Form.ofNegative_cases x.toInt with
      ⟨long, form⟩ | ⟨above, medium, form⟩ | ⟨short, form⟩ <;>
    simp only [form]
    · rw [if_pos (show x.toInt < mediumMin from long), Nat.add_comm]
    · have notLong : ¬x.toInt < mediumMin := Int.not_lt.mpr above
      rw [if_neg notLong, if_pos (show x.toInt < shortMin from medium)]
    · have notLong : ¬x.toInt < mediumMin := Int.not_lt.mpr (Int.le_trans (by decide) short)
      have notMedium : ¬x.toInt < shortMin := Int.not_lt.mpr short
      rw [if_neg notLong, if_neg notMedium, if_pos negative]
  · have positive : 0 ≤ x.toInt := Int.not_lt.mp negative
    have notLong : ¬x.toInt < mediumMin := Int.not_lt.mpr (Int.le_trans (by decide) positive)
    have notMedium : ¬x.toInt < shortMin := Int.not_lt.mpr (Int.le_trans (by decide) positive)
    rw [if_neg negative, if_neg notLong, if_neg notMedium, if_neg negative, length_encodeNat]

theorem decodeUnsigned_encodeUnsigned (offset : Nat) (rest : List UInt8) (x : UInt64) :
    decodeUnsigned ⟨offset, encodeUnsigned x ++ rest⟩ =
      .ok (x, ⟨offset + (encodeUnsigned x).length, rest⟩) := by
  have read := decodeNat_encodeNat offset rest x.toNat_lt
  rw [decodeUnsigned, encodeUnsigned, read]
  simp only [bind, Except.bind, UInt64.ofNat_toNat]

/-- A signed word that is not negative is read as if it were unsigned. -/
private theorem decodeSigned_encodeNat (offset : Nat) (rest : List UInt8)
    (small : n < UInt64.size / 2) :
    decodeSigned ⟨offset, encodeNat n ++ rest⟩ =
      .ok (Int64.ofInt n, ⟨offset + (encodeNat n).length, rest⟩) := by
  have word : n < UInt64.size := by omega
  have read := decodeNat_encodeNat offset rest word
  have mark := (Form.ofNat_valid word).toNat_lead
  rw [encodeNat_eq_bytes, Form.bytes, List.cons_append] at read ⊢
  rw [decodeSigned_positive offset _ (by rw [mark]; exact Form.le_ofNat_lead n)]
  exact checked_pair read (· < UInt64.size / 2) small _ (Int64.ofInt ·)

/-- A negative word is read back from its class. -/
private theorem decodeSigned_encodeNegative {x : Int} (offset : Nat) (rest : List UInt8)
    (large : -(UInt64.size / 2 : Nat) ≤ x) (negative : x < 0) :
    decodeSigned ⟨offset, encodeNegative x ++ rest⟩ =
      .ok (Int64.ofInt x, ⟨offset + (encodeNegative x).length, rest⟩) := by
  have valid := Form.ofNegative_valid large negative
  have mark := valid.toNat_lead
  rw [encodeNegative_eq_bytes, Form.bytes, List.length_cons, length_bigEndian, List.cons_append]
  generalize UInt8.ofNat (Form.ofNegative x).lead = byte at mark ⊢
  rcases Form.ofNegative_cases x with ⟨long, form⟩ | ⟨above, medium, form⟩ | ⟨short, form⟩ <;>
  simp only [form] at valid mark ⊢
  · have digits : byteLength (-x - 1).toNat ≤ 8 := valid.length
    have fits := lt_span_byteLength (-x - 1).toNat
    have digit := byteLength_pos (n := (-x - 1).toNat) (by omega)
    have length : 0x18 - byte.toNat = byteLength (-x - 1).toNat := by omega
    have read : payload offset ⟨offset + 1, bigEndian (byteLength (-x - 1).toNat)
        (span (byteLength (-x - 1).toNat) + x).toNat ++ rest⟩ (0x18 - byte.toNat) =
          .ok ((span (byteLength (-x - 1).toNat) + x).toNat,
            ⟨offset + 1 + byteLength (-x - 1).toNat, rest⟩) := by
      rw [length]
      exact payload_bigEndian _ _ _ (by omega)
    have value : ((span (byteLength (-x - 1).toNat) + x).toNat : Int) -
        span (0x18 - byte.toNat) = x := by
      rw [length]
      omega
    rw [decodeSigned_long _ _ (by omega) (by omega), read]
    simp only [Except.map]
    rw [value, Nat.add_assoc, Nat.add_comm 1]
  · have low : (UInt8.ofNat ((x + 8256).toNat % 256)).toNat = (x + 8256).toNat % 256 := by simp
    have value : mediumMin + (byte.toNat - 0x20) * 256 + ((x + 8256).toNat % 256 : Nat) = x := by
      rw [mark, mediumMin]
      omega
    rw [decodeSigned_medium _ _ (by omega) (by omega)]
    simp only [bigEndian, span, Nat.div_one, List.cons_append, List.nil_append, lead, Except.map,
      low, value]
  · have value : shortMin + (byte.toNat - 0x40) = x := by
      rw [mark, shortMin]
      omega
    rw [decodeSigned_short _ _ (by omega) (by omega), value]
    rfl

theorem decodeSigned_encodeSigned (offset : Nat) (rest : List UInt8) (x : Int64) :
    decodeSigned ⟨offset, encodeSigned x ++ rest⟩ =
      .ok (x, ⟨offset + (encodeSigned x).length, rest⟩) := by
  have lower := x.le_toInt
  have upper := x.toInt_lt
  unfold encodeSigned
  split
  · rw [decodeSigned_encodeNegative _ _ (by simp only [UInt64.size]; omega) ‹_›, Int64.ofInt_toInt]
  · have positive : (x.toInt.toNat : Int) = x.toInt := by omega
    rw [decodeSigned_encodeNat _ _ (by simp only [UInt64.size]; omega), positive, Int64.ofInt_toInt]

end OrderPack.Varint
