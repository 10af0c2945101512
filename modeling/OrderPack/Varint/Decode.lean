import OrderPack.Reader
import OrderPack.Text.Hex
import OrderPack.Varint.Basic

/-! Reading integers back. A decoder looks at the lead byte, then at exactly
as many bytes as that calls for, and hands on the rest; it accepts payloads
with superfluous leading bytes, which no encoder writes. -/
namespace OrderPack.Varint

/-- Why no integer can be read. The offset is that of the lead byte, but for
a missing second byte it is where that byte should stand. -/
inductive Error where
  | truncated (shortage : Shortage)
  | payloadTooLong (offset length : Nat)
  | wordOverflow (offset : Nat)
  | notUnsigned (offset : Nat) (lead : UInt8)
  | tooManyDropped (offset count : Nat)
  | beyondSigned (offset : Nat)
  deriving DecidableEq

/-- Only a shortage is the fault of the input's length; all else is damage. -/
def Error.report : Error → Report
  | .truncated shortage => shortage.report
  | .payloadTooLong offset length =>
    { kind := .corrupt
      message := some ("multi-byte varint declares " ++ toString length ++ " payload bytes")
      offset := some offset }
  | .wordOverflow offset =>
    { kind := .corrupt
      message := some "unsigned varint overflows 64 bits"
      offset := some offset }
  | .notUnsigned offset lead =>
    { kind := .corrupt
      message := some ("byte 0x" ++ Text.hexByte lead ++ " is not an unsigned varint marker")
      offset := some offset }
  | .tooManyDropped offset count =>
    { kind := .corrupt
      message := some ("negative varint drops " ++ toString count ++ " leading bytes")
      offset := some offset }
  | .beyondSigned offset =>
    { kind := .corrupt
      message := some "varint exceeds the signed 64-bit range"
      offset := some offset
      causes := ["number too large to fit in target type"] }

/-- The lead byte, and the reader past it. -/
def lead (reader : Reader) : Except Error (UInt8 × Reader) :=
  match reader.rest with
  | [] => .error (.truncated ⟨reader.offset, 1⟩)
  | byte :: rest => .ok (byte, ⟨reader.offset + 1, rest⟩)

/-- The payload after the lead byte, as a number. A shortage is reported at
the lead byte, since the integer as a whole is what is incomplete. -/
def payload (start : Nat) (reader : Reader) (length : Nat) : Except Error (Nat × Reader) :=
  match reader.take length with
  | .error shortage => .error (.truncated { shortage with offset := start })
  | .ok (bytes, reader) => .ok (fromBigEndian bytes, reader)

/-- Reads a number of one of the three classes that are not negative. -/
def decodeNat (reader : Reader) : Except Error (Nat × Reader) := do
  let (byte, after) ← lead reader
  let mark := byte.toNat
  if mark < 0x80 then
    .error (.notUnsigned reader.offset byte)
  else if mark < 0xc0 then
    .ok (mark - 0x80, after)
  else if mark < 0xe0 then
    let (low, after) ← lead after
    .ok (64 + (mark - 0xc0) * 256 + low.toNat, after)
  else if mark < 0xf0 then
    let length := mark - 0xe0
    if 8 < length then
      .error (.payloadTooLong reader.offset length)
    else
      let (distance, after) ← payload reader.offset after length
      if distance + 8256 < UInt64.size then .ok (distance + 8256, after)
      else .error (.wordOverflow reader.offset)
  else
    .error (.notUnsigned reader.offset byte)

/-- Reads an unsigned word. -/
def decodeUnsigned (reader : Reader) : Except Error (UInt64 × Reader) := do
  let (n, after) ← decodeNat reader
  .ok (UInt64.ofNat n, after)

/-- Reads a signed word. In the longest negative class the dropped bytes count
as `0xff`; with none dropped the payload is a whole two's complement word. -/
def decodeSigned (reader : Reader) : Except Error (Int64 × Reader) := do
  let (byte, after) ← lead reader
  let mark := byte.toNat
  if 0x10 ≤ mark ∧ mark < 0x20 then
    let dropped := mark - 0x10
    if 8 ≤ dropped then
      .error (.tooManyDropped reader.offset dropped)
    else
      let (n, after) ← payload reader.offset after (8 - dropped)
      .ok (Int64.ofInt (n - span (8 - dropped)), after)
  else if 0x20 ≤ mark ∧ mark < 0x40 then
    let (low, after) ← lead after
    .ok (Int64.ofInt (mediumMin + (mark - 0x20) * 256 + low.toNat), after)
  else if 0x40 ≤ mark ∧ mark < 0x80 then
    .ok (Int64.ofInt (shortMin + (mark - 0x40)), after)
  else
    let (n, after) ← decodeNat reader
    if n < UInt64.size / 2 then .ok (Int64.ofInt n, after)
    else .error (.beyondSigned reader.offset)

end OrderPack.Varint
