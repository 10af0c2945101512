import OrderPack.Value
import OrderPack.Varint.Basic

/-! One field of a record as bytes. `Field.encodedSize` says how many bytes a value
takes and `Field.encode` gives them. Each of the two looks at the value on its own
and refuses one that does not suit the field; they agree on every field and value. -/
namespace OrderPack

/-- Why a value does not suit a field. -/
inductive Misfit where
  /-- The field is for another kind of value. -/
  | kind (got : ValueKind)
  /-- The number is out of the field's range. -/
  | range (number : Int) (bits : Nat) (signed : Bool)
  deriving DecidableEq

/-- The sentence for a misfit. Fields are shown by their letter. -/
def Misfit.message (tag : Tag) : Misfit → String
  | .kind got =>
    let expected := (tag.kind?.map ValueKind.describe).getD "no value"
    "tag '" ++ String.singleton tag.letter ++ "' expects " ++ expected ++ ", got " ++ got.describe
  | .range number bits signed =>
    "value " ++ toString number ++ " does not fit tag '" ++ String.singleton tag.letter ++ "' ("
      ++ toString bits ++ (if signed then "-bit signed)" else "-bit unsigned)")

namespace Value

/-- The content of a text. -/
def expectText : Value → Except Misfit String
  | .text content => .ok content
  | value => .error (.kind value.kind)

/-- The content of a byte string. -/
def expectBytes : Value → Except Misfit (List UInt8)
  | .bytes content => .ok content
  | value => .error (.kind value.kind)

/-- A signed number of so many bits. -/
def expectSigned (bits : Nat) : Value → Except Misfit Int64
  | .int64 n =>
    let half : Int := Nat.pow 2 (bits - 1)
    if -half ≤ n.toInt ∧ n.toInt < half then .ok n else .error (.range n.toInt bits true)
  | value => .error (.kind value.kind)

/-- An unsigned number of so many bits. -/
def expectUnsigned (bits : Nat) : Value → Except Misfit UInt64
  | .uint64 n =>
    if n.toNat < Nat.pow 2 bits then .ok n else .error (.range n.toNat bits false)
  | value => .error (.kind value.kind)

end Value

namespace Field

/-- A row of zero bytes. -/
def zeros (count : Nat) : List UInt8 := List.replicate count 0

/-- Text in a fixed width. What does not fit is cut off between two characters,
and what is left over is zero. -/
def fixedText (width : Nat) (chars : List Char) : List UInt8 :=
  let kept := Text.utf8 (Text.takeFitting width chars)
  kept ++ zeros (width - kept.length)

/-- The bytes before the first NUL. -/
def beforeNul (bytes : List UInt8) : List UInt8 := bytes.takeWhile (· != 0)

/-- Text up to its first NUL, and a NUL after it. -/
def terminated (bytes : List UInt8) : List UInt8 := beforeNul bytes ++ [0]

/-- How many bytes a field of raw bytes copies out of so many, and how many zeros it
puts after them. Without a size it takes the bytes as they are. -/
def rawExtent (field : Field) (length : Nat) : Nat × Nat :=
  if field.sized then
    if field.size < length then (field.size, 0) else (length, field.size - length)
  else (length, 0)

/-- A signed byte, moved so that byte order is numeric order. -/
def flippedByte (n : Int64) : UInt8 := UInt8.ofNat (n.toInt + 128).toNat

/-- The bytes of a value in this field. -/
def encode (field : Field) (value : Value) : Except Misfit (List UInt8) :=
  match field.tag with
  | .padding => .ok (zeros field.size)
  | .fixedText => do
    let content ← value.expectText
    return fixedText field.size content.toList
  | .text => do
    let content ← value.expectText
    return if field.sized then fixedText field.size content.toList
      else terminated (Text.bytes content)
  | .raw => do
    let content ← value.expectBytes
    let (copied, filled) := field.rawExtent content.length
    return content.take copied ++ zeros filled
  | .sizedRaw => do
    let content ← value.expectBytes
    let (copied, filled) := field.rawExtent content.length
    return Varint.encodeNat (copied + filled) ++ content.take copied ++ zeros filled
  | .bits => do
    let n ← value.expectUnsigned field.size
    return [UInt8.ofNat n.toNat]
  | .scalar .int8 => do
    let n ← value.expectSigned 8
    return [flippedByte n]
  | .scalar .uint8 => do
    let n ← value.expectUnsigned 8
    return [UInt8.ofNat n.toNat]
  | .scalar (.int width) => do
    let n ← value.expectSigned width.bits
    return Varint.encodeSigned n
  | .scalar (.uint width) => do
    let n ← value.expectUnsigned width.bits
    return Varint.encodeUnsigned n
  | .scalar .recordId => do
    let n ← value.expectUnsigned 64
    return Varint.bigEndian 8 n.toNat

/-- How many bytes a value takes in this field, found without writing them. -/
def encodedSize (field : Field) (value : Value) : Except Misfit Nat :=
  match field.tag with
  | .padding => .ok field.size
  | .fixedText => do
    let _ ← value.expectText
    return field.size
  | .text => do
    let content ← value.expectText
    return if field.sized then field.size else (beforeNul (Text.bytes content)).length + 1
  | .raw => do
    let content ← value.expectBytes
    let (copied, filled) := field.rawExtent content.length
    return copied + filled
  | .sizedRaw => do
    let content ← value.expectBytes
    let (copied, filled) := field.rawExtent content.length
    return Varint.sizeNat (copied + filled) + copied + filled
  | .bits => do
    let _ ← value.expectUnsigned field.size
    return 1
  | .scalar .int8 => do
    let _ ← value.expectSigned 8
    return 1
  | .scalar .uint8 => do
    let _ ← value.expectUnsigned 8
    return 1
  | .scalar (.int width) => do
    let n ← value.expectSigned width.bits
    return Varint.sizeSigned n
  | .scalar (.uint width) => do
    let n ← value.expectUnsigned width.bits
    return Varint.sizeUnsigned n
  | .scalar .recordId => do
    let _ ← value.expectUnsigned 64
    return 8

end Field

end OrderPack
