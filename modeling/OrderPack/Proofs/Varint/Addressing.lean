import OrderPack.Proofs.Varint.RoundTrip

/-! Decoding an integer at an offset of a buffer, in the arithmetic of machine words. The
lead byte has been found in the buffer before anything is added to its offset, and what is
added is at most nine, so that no sum is out of range; the bytes that are missing are counted
only when the payload ends behind the buffer. So nothing stops the decoding, and it finds
what is found by reading the bytes from the front. -/
namespace OrderPack.Varint

/-- The byte at an offset. -/
def byteAt (buffer : List UInt8) (offset : Nat) : Except Error UInt8 :=
  match buffer[offset]? with
  | some byte => .ok byte
  | none => .error (.truncated ⟨offset, 1⟩)

/-- The byte behind a lead byte. -/
def secondAt? (buffer : List UInt8) (cursor : Nat) : Option (Except Error (UInt8 × Reader)) := do
  let second ← Word.add? cursor 1
  match byteAt buffer second with
  | .error error => return .error error
  | .ok low =>
    let next ← Word.add? cursor 2
    return .ok (low, Reader.ofBuffer buffer next)

/-- The payload behind a lead byte. What it lacks is the distance of its end from that of the
buffer. -/
def payloadAt? (buffer : List UInt8) (cursor length : Nat) :
    Option (Except Error (List UInt8 × Reader)) := do
  let start ← Word.add? cursor 1
  let stop ← Word.add? start length
  match slice? buffer start stop with
  | some bytes => return .ok (bytes, Reader.ofBuffer buffer stop)
  | none =>
    let missing ← Word.sub? stop buffer.length
    return .error (.truncated ⟨cursor, missing⟩)

/-- A number of one of the three classes that are not negative. Only for the last sum it is
foreseen that it may be too large for a word. -/
def decodeNatAt? (buffer : List UInt8) (cursor : Nat) : Option (Except Error (Nat × Reader)) :=
  match byteAt buffer cursor with
  | .error error => some (.error error)
  | .ok byte =>
    let mark := byte.toNat
    if mark < 0x80 then
      some (.error (.notUnsigned cursor byte))
    else if mark < 0xc0 then do
      let next ← Word.add? cursor 1
      return .ok (mark % 64, Reader.ofBuffer buffer next)
    else if mark < 0xe0 then do
      match ← secondAt? buffer cursor with
      | .error error => return .error error
      | .ok (low, after) =>
        let n ← (Word.add? (mark % 32 * 256 + low.toNat) 63).bind (Word.add? · 1)
        return .ok (n, after)
    else if mark < 0xf0 then
      let length := mark % 16
      if 8 < length then
        some (.error (.payloadTooLong cursor length))
      else do
        match ← payloadAt? buffer cursor length with
        | .error error => return .error error
        | .ok (bytes, after) =>
          match Word.add? (fromBigEndian bytes) 8256 with
          | some n => return .ok (n, after)
          | none => return .error (.wordOverflow cursor)
    else
      some (.error (.notUnsigned cursor byte))

/-- An unsigned word. -/
def decodeUnsignedAt? (buffer : List UInt8) (cursor : Nat) :
    Option (Except Error (UInt64 × Reader)) :=
  (decodeNatAt? buffer cursor).map fun answer => answer.map fun (n, after) => (UInt64.ofNat n, after)

/-- A signed word. -/
def decodeSignedAt? (buffer : List UInt8) (cursor : Nat) :
    Option (Except Error (Int64 × Reader)) :=
  match byteAt buffer cursor with
  | .error error => some (.error error)
  | .ok byte =>
    let mark := byte.toNat
    if 0x10 ≤ mark ∧ mark < 0x20 then
      let dropped := mark % 16
      if 8 ≤ dropped then
        some (.error (.tooManyDropped cursor dropped))
      else do
        let length ← Word.sub? 8 dropped
        match ← payloadAt? buffer cursor length with
        | .error error => return .error error
        | .ok (bytes, after) => return .ok (Int64.ofInt (fromBigEndian bytes - span length), after)
    else if 0x20 ≤ mark ∧ mark < 0x40 then do
      match ← secondAt? buffer cursor with
      | .error error => return .error error
      | .ok (low, after) =>
        let n ← Word.addSigned? (mark % 32 * 256 + low.toNat : Nat) mediumMin
        return .ok (Int64.ofInt n, after)
    else if 0x40 ≤ mark ∧ mark < 0x80 then do
      let n ← Word.addSigned? shortMin (mark % 64 : Nat)
      let next ← Word.add? cursor 1
      return .ok (Int64.ofInt n, Reader.ofBuffer buffer next)
    else do
      match ← decodeNatAt? buffer cursor with
      | .error error => return .error error
      | .ok (n, after) =>
        if n < UInt64.size / 2 then return .ok (Int64.ofInt n, after)
        else return .error (.beyondSigned cursor)

section At
variable {buffer : List UInt8}

/-- Either there is a byte at the offset, and the others lie behind it, or there is none. -/
theorem byteAt_cases (buffer : List UInt8) (offset : Nat) :
    (∃ byte, byteAt buffer offset = .ok byte ∧ offset < buffer.length ∧
      Reader.ofBuffer buffer offset = ⟨offset, byte :: buffer.drop (offset + 1)⟩) ∨
    byteAt buffer offset = .error (.truncated ⟨offset, 1⟩) ∧
      Reader.ofBuffer buffer offset = ⟨offset, []⟩ := by
  by_cases inside : offset < buffer.length
  · refine .inl ⟨buffer[offset], ?_, inside, ?_⟩
    · rw [byteAt, List.getElem?_eq_getElem inside]
    · rw [Reader.ofBuffer, List.drop_eq_getElem_cons inside]
  · have beyond : buffer.length ≤ offset := Nat.le_of_not_lt inside
    refine .inr ⟨?_, ?_⟩
    · rw [byteAt, List.getElem?_eq_none beyond]
    · rw [Reader.ofBuffer, List.drop_eq_nil_of_le beyond]

theorem lead_ofBuffer (buffer : List UInt8) (offset : Nat) :
    lead (Reader.ofBuffer buffer offset) =
      (byteAt buffer offset).map fun byte => (byte, Reader.ofBuffer buffer (offset + 1)) := by
  rcases byteAt_cases buffer offset with ⟨byte, found, _, front⟩ | ⟨missing, empty⟩
  · rw [found, front]
    rfl
  · rw [missing, empty]
    rfl

theorem secondAt?_eq (addressable : Addressable buffer) (inside : cursor < buffer.length) :
    secondAt? buffer cursor = some (lead (Reader.ofBuffer buffer (cursor + 1))) := by
  have second : Word.add? cursor 1 = some (cursor + 1) :=
    Word.add?_of_lt (addressable.word (by omega))
  have next : Word.add? cursor 2 = some (cursor + 2) :=
    Word.add?_of_lt (addressable.word (by omega))
  simp only [secondAt?, second, next, lead_ofBuffer, Option.bind_eq_bind, Option.bind_some]
  cases byteAt buffer (cursor + 1) <;> rfl

/-- The payload as it is read from the front, before it is taken for a number. -/
def payloadBytes (start : Nat) (reader : Reader) (length : Nat) :
    Except Error (List UInt8 × Reader) :=
  match reader.take length with
  | .error shortage => .error (.truncated { shortage with offset := start })
  | .ok taken => .ok taken

theorem payload_eq (start : Nat) (reader : Reader) (length : Nat) :
    payload start reader length =
      (payloadBytes start reader length).map fun (bytes, after) => (fromBigEndian bytes, after) := by
  rw [payload, payloadBytes]
  cases reader.take length <;> rfl

theorem payloadAt?_eq (addressable : Addressable buffer) (inside : cursor < buffer.length)
    (few : length ≤ 8) :
    payloadAt? buffer cursor length =
      some (payloadBytes cursor (Reader.ofBuffer buffer (cursor + 1)) length) := by
  have start : Word.add? cursor 1 = some (cursor + 1) :=
    Word.add?_of_lt (addressable.word (by omega))
  have stop : Word.add? (cursor + 1) length = some (cursor + 1 + length) :=
    Word.add?_of_lt (addressable.word (by omega))
  simp only [payloadAt?, payloadBytes, start, stop, Option.bind_eq_bind, Option.bind_some]
  by_cases enough : cursor + 1 + length ≤ buffer.length
  · rw [slice?_add enough, Reader.take_ofBuffer enough]
    rfl
  · have beyond : buffer.length < cursor + 1 + length := Nat.lt_of_not_le enough
    have missing : cursor + 1 + length - buffer.length = length - (buffer.length - (cursor + 1)) := by
      omega
    rw [slice?_of_lt beyond, Reader.take_ofBuffer_short beyond inside]
    simp only [Word.sub?_of_le (Nat.le_of_lt beyond), missing, Option.bind_some]
    rfl

/-- The sum by which a number of two bytes is found. -/
theorem add?_medium {byte : UInt8} (lower : 0xc0 ≤ byte.toNat) (upper : byte.toNat < 0xe0)
    (low : UInt8) :
    (Word.add? (byte.toNat % 32 * 256 + low.toNat) 63).bind (Word.add? · 1) =
      some (64 + (byte.toNat - 0xc0) * 256 + low.toNat) := by
  have digit := low.toNat_lt
  have value : byte.toNat % 32 * 256 + low.toNat + 63 + 1 =
      64 + (byte.toNat - 0xc0) * 256 + low.toNat := by omega
  have small : byte.toNat % 32 * 256 + low.toNat + 63 + 1 < 65536 := by omega
  have word : byte.toNat % 32 * 256 + low.toNat + 63 + 1 < UInt64.size :=
    Nat.lt_trans small (by decide)
  rw [Word.add?_of_lt (Nat.lt_of_succ_lt word), Option.bind_some, Word.add?_of_lt word, value]

theorem addSigned?_medium {byte : UInt8} (lower : 0x20 ≤ byte.toNat) (upper : byte.toNat < 0x40)
    (low : UInt8) :
    Word.addSigned? (byte.toNat % 32 * 256 + low.toNat : Nat) mediumMin =
      some (mediumMin + (byte.toNat - 0x20) * 256 + low.toNat) := by
  have digit := low.toNat_lt
  have value : ((byte.toNat % 32 * 256 + low.toNat : Nat) : Int) + mediumMin =
      mediumMin + (byte.toNat - 0x20) * 256 + low.toNat := by omega
  have half : (UInt64.size / 2 : Nat) = 9223372036854775808 := rfl
  rw [Word.addSigned?_of_mem, value]
  · rw [half, mediumMin]
    omega
  · rw [half, mediumMin]
    omega

theorem addSigned?_short {byte : UInt8} (lower : 0x40 ≤ byte.toNat) (upper : byte.toNat < 0x80) :
    Word.addSigned? shortMin (byte.toNat % 64 : Nat) = some (shortMin + (byte.toNat - 0x40)) := by
  have value : shortMin + ((byte.toNat % 64 : Nat) : Int) = shortMin + (byte.toNat - 0x40) := by
    omega
  have half : (UInt64.size / 2 : Nat) = 9223372036854775808 := rfl
  rw [Word.addSigned?_of_mem, value]
  · rw [half, shortMin]
    omega
  · rw [half, shortMin]
    omega

theorem decodeNatAt?_eq (addressable : Addressable buffer) (cursor : Nat) :
    decodeNatAt? buffer cursor = some (decodeNat (Reader.ofBuffer buffer cursor)) := by
  rw [decodeNatAt?, decodeNat, lead_ofBuffer]
  rcases byteAt_cases buffer cursor with ⟨byte, found, inside, _⟩ | ⟨missing, _⟩
  · have next : Word.add? cursor 1 = some (cursor + 1) :=
      Word.add?_of_lt (addressable.word (by omega))
    rw [found]
    simp only [Except.map, bind, Except.bind, next, secondAt?_eq addressable inside, payload_eq,
      Reader.offset_ofBuffer, Option.bind_some]
    split
    · rfl
    split
    · have value : byte.toNat % 64 = byte.toNat - 0x80 := by omega
      rw [value]
      rfl
    split
    · cases lead (Reader.ofBuffer buffer (cursor + 1)) with
      | error error => rfl
      | ok second =>
        simp only [add?_medium (show 0xc0 ≤ byte.toNat by omega) (by omega) second.1, Option.bind_some]
        rfl
    split
    · have length : byte.toNat % 16 = byte.toNat - 0xe0 := by omega
      rw [length]
      by_cases long : 8 < byte.toNat - 0xe0
      · simp only [if_pos long]
      · simp only [if_neg long, payloadAt?_eq addressable inside (Nat.le_of_not_lt long),
          Option.bind_some]
        -- Only here the sum may be no word, and this is damage of the input.
        cases payloadBytes cursor (Reader.ofBuffer buffer (cursor + 1)) (byte.toNat - 0xe0) with
        | error error => rfl
        | ok taken =>
          simp only [Word.add?]
          by_cases word : fromBigEndian taken.1 + 8256 < UInt64.size
          · simp only [if_pos word]
            rfl
          · simp only [if_neg word]
            rfl
    · rfl
  · rw [missing]
    rfl

theorem decodeUnsignedAt?_eq (addressable : Addressable buffer) (cursor : Nat) :
    decodeUnsignedAt? buffer cursor = some (decodeUnsigned (Reader.ofBuffer buffer cursor)) := by
  rw [decodeUnsignedAt?, decodeUnsigned, decodeNatAt?_eq addressable]
  cases decodeNat (Reader.ofBuffer buffer cursor) <;> rfl

theorem decodeSignedAt?_eq (addressable : Addressable buffer) (cursor : Nat) :
    decodeSignedAt? buffer cursor = some (decodeSigned (Reader.ofBuffer buffer cursor)) := by
  rw [decodeSignedAt?, decodeSigned, lead_ofBuffer]
  rcases byteAt_cases buffer cursor with ⟨byte, found, inside, _⟩ | ⟨missing, _⟩
  · have next : Word.add? cursor 1 = some (cursor + 1) :=
      Word.add?_of_lt (addressable.word (by omega))
    rw [found]
    simp only [Except.map, bind, Except.bind, next, secondAt?_eq addressable inside, payload_eq,
      decodeNatAt?_eq addressable, Reader.offset_ofBuffer, Option.bind_some]
    split
    · have dropped : byte.toNat % 16 = byte.toNat - 0x10 := by omega
      rw [dropped]
      by_cases many : 8 ≤ byte.toNat - 0x10
      · simp only [if_pos many]
      · have length : Word.sub? 8 (byte.toNat - 0x10) = some (8 - (byte.toNat - 0x10)) :=
          Word.sub?_of_le (by omega)
        simp only [if_neg many, length, Option.bind_some,
          payloadAt?_eq addressable inside (Nat.sub_le 8 _)]
        cases payloadBytes cursor (Reader.ofBuffer buffer (cursor + 1))
          (8 - (byte.toNat - 0x10)) <;> rfl
    split
    · cases lead (Reader.ofBuffer buffer (cursor + 1)) with
      | error error => rfl
      | ok second =>
        simp only [addSigned?_medium (show 0x20 ≤ byte.toNat by omega) (by omega) second.1,
          Option.bind_some]
        rfl
    split
    · simp only [addSigned?_short (show 0x40 ≤ byte.toNat by omega) (by omega), Option.bind_some]
      rfl
    · cases decodeNat (Reader.ofBuffer buffer cursor) with
      | error error => rfl
      | ok found =>
        by_cases signed : found.1 < UInt64.size / 2
        · simp only [if_pos signed]
          rfl
        · simp only [if_neg signed]
          rfl
  · rw [missing]
    rfl

end At

/-- What is decoded leaves a place that is not before the one it was decoded from. -/
def Advances (reader : Reader) (read : Except Error (α × Reader)) : Prop :=
  ∀ found after, read = .ok (found, after) → reader.Onward after

theorem Advances.ok {reader after : Reader} (onward : reader.Onward after) (found : α) :
    Advances reader (.ok (found, after)) := by
  rintro _ _ ⟨⟩
  exact onward

theorem Advances.error (reader : Reader) (cause : Error) :
    Advances (α := α) reader (.error cause) := nofun

theorem Advances.bind {reader : Reader} {read : Except Error (α × Reader)}
    {next : α × Reader → Except Error (β × Reader)} (first : Advances reader read)
    (later : ∀ found after, reader.Onward after → Advances reader (next (found, after))) :
    Advances reader (read.bind next) := by
  cases read with
  | error cause => exact .error reader cause
  | ok pair => exact later pair.1 pair.2 (first pair.1 pair.2 rfl)

theorem lead_advances {reader start : Reader} (onward : start.Onward reader) :
    Advances start (lead reader) := by
  obtain ⟨offset, rest⟩ := reader
  cases rest with
  | nil => exact .error start _
  | cons byte rest => exact .ok (onward.trans ⟨1, Nat.succ_le_succ (Nat.zero_le _), rfl⟩) byte

theorem payload_advances {reader start : Reader} (onward : start.Onward reader)
    (place count : Nat) : Advances start (payload place reader count) := by
  rw [payload]
  cases took : reader.take count with
  | error shortage => exact .error start _
  | ok taken => exact .ok (onward.trans (.of_take took)) _

theorem decodeNat_advances (reader : Reader) : Advances reader (decodeNat reader) := by
  refine (lead_advances (.refl reader)).bind fun byte after onward => ?_
  simp only
  split
  · exact .error reader _
  split
  · exact .ok onward _
  split
  · exact (lead_advances onward).bind fun low after onward => .ok onward _
  split
  · split
    · exact .error reader _
    · refine (payload_advances onward _ _).bind fun distance after onward => ?_
      simp only
      split
      · exact .ok onward _
      · exact .error reader _
  · exact .error reader _

theorem decodeUnsigned_advances (reader : Reader) : Advances reader (decodeUnsigned reader) :=
  (decodeNat_advances reader).bind fun n _ onward => .ok onward (UInt64.ofNat n)

theorem decodeSigned_advances (reader : Reader) : Advances reader (decodeSigned reader) := by
  refine (lead_advances (.refl reader)).bind fun byte after onward => ?_
  simp only
  split
  · split
    · exact .error reader _
    · exact (payload_advances onward _ _).bind fun n after onward => .ok onward _
  split
  · exact (lead_advances onward).bind fun low after onward => .ok onward _
  split
  · exact .ok onward _
  · refine (decodeNat_advances reader).bind fun n after onward => ?_
    simp only
    split
    · exact .ok onward _
    · exact .error reader _

end OrderPack.Varint
