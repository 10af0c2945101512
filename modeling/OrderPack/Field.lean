/-! The fields of a record: what a tag letter stands for, and which kind of value
it reads and writes. -/
namespace OrderPack

/-- The kinds of value that a record can hold. -/
inductive ValueKind where
  | int64
  | uint64
  | text
  | bytes
  deriving DecidableEq

namespace ValueKind

/-- The kind in a sentence, with its article. -/
def describe : ValueKind → String
  | .int64 => "a signed integer"
  | .uint64 => "an unsigned integer"
  | .text => "a string"
  | .bytes => "a byte string"

end ValueKind

/-- How wide a column of integers is declared. The width limits what may be
packed and leaves the bytes of an integer alone. A record number has the range
of the widest integers and a letter of its own. -/
inductive IntWidth where
  | w16
  | w32
  | w64
  | recno
  deriving DecidableEq

/-- The declared width in bits. -/
def IntWidth.bits : IntWidth → Nat
  | .w16 => 16
  | .w32 => 32
  | .w64 | .recno => 64

/-- The tags whose count repeats the field instead of sizing it. -/
inductive Scalar where
  /-- A signed byte, its sign bit flipped so that byte order is numeric order. -/
  | int8
  /-- An unsigned byte. -/
  | uint8
  /-- A signed integer of variable length. -/
  | int (width : IntWidth)
  /-- An unsigned integer of variable length. -/
  | uint (width : IntWidth)
  /-- A record number in eight bytes. -/
  | recordId
  deriving DecidableEq

/-- The kind of value a scalar reads and writes. -/
def Scalar.kind : Scalar → ValueKind
  | .int8 | .int _ => .int64
  | .uint8 | .uint _ | .recordId => .uint64

/-- What a field is. -/
inductive Tag where
  /-- Zero bytes that hold no value. -/
  | padding
  /-- Text in a fixed number of bytes. -/
  | fixedText
  /-- Text closed by a NUL, or fixed like `fixedText` where a count is given. -/
  | text
  /-- Bytes, as many as the count says or the buffer holds. -/
  | raw
  /-- Bytes behind their length. -/
  | sizedRaw
  /-- One to eight bits in one byte. -/
  | bits
  | scalar (scalar : Scalar)
  deriving DecidableEq

namespace Tag

/-- The tag of a descriptor letter. Whether raw bytes carry their length depends
on where they stand, so the letter alone does not settle it for a descriptor. -/
def ofByte? (byte : UInt8) : Option Tag :=
  match Char.ofNat byte.toNat with
  | 'x' => some .padding
  | 's' => some .fixedText
  | 'S' => some .text
  | 'u' => some .raw
  | 'U' => some .sizedRaw
  | 't' => some .bits
  | 'b' => some (.scalar .int8)
  | 'B' => some (.scalar .uint8)
  | 'h' => some (.scalar (.int .w16))
  | 'i' | 'l' => some (.scalar (.int .w32))
  | 'q' => some (.scalar (.int .w64))
  | 'H' => some (.scalar (.uint .w16))
  | 'I' | 'L' => some (.scalar (.uint .w32))
  | 'Q' => some (.scalar (.uint .w64))
  | 'r' => some (.scalar (.uint .recno))
  | 'R' => some (.scalar .recordId)
  | _ => none

/-- The letter by which a tag is shown. Letters of one width share the first. -/
def letter : Tag → Char
  | .padding => 'x'
  | .fixedText => 's'
  | .text => 'S'
  | .raw => 'u'
  | .sizedRaw => 'U'
  | .bits => 't'
  | .scalar .int8 => 'b'
  | .scalar .uint8 => 'B'
  | .scalar (.int .w16) => 'h'
  | .scalar (.int .w32) => 'i'
  | .scalar (.int .w64) | .scalar (.int .recno) => 'q'
  | .scalar (.uint .w16) => 'H'
  | .scalar (.uint .w32) => 'I'
  | .scalar (.uint .w64) => 'Q'
  | .scalar (.uint .recno) => 'r'
  | .scalar .recordId => 'R'

/-- The kind of value the tag reads and writes; padding has none. -/
def kind? : Tag → Option ValueKind
  | .padding => none
  | .fixedText | .text => some .text
  | .raw | .sizedRaw => some .bytes
  | .bits => some .uint64
  | .scalar one => some one.kind

/-- The declared width of integers of variable length. -/
def width? : Tag → Option IntWidth
  | .scalar (.int width) | .scalar (.uint width) => some width
  | _ => none

end Tag

/-- One field of a record. The size is the count written before the tag, one
where none was written; `sized` tells the two apart. Scalars are never sized,
as their count is spent on repetition. -/
structure Field where
  tag : Tag
  size : Nat
  sized : Bool
  deriving DecidableEq

namespace Field

/-- Only padding holds no value. -/
def holdsValue (field : Field) : Bool := field.tag != .padding

/-- One copy of a repeated scalar. -/
def ofScalar (scalar : Scalar) : Field := ⟨.scalar scalar, 1, false⟩

end Field

end OrderPack
