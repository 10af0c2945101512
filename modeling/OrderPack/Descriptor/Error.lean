import OrderPack.Report
import OrderPack.Text.Hex

/-! What can be wrong with a record descriptor. -/
namespace OrderPack

namespace Text

/-- A byte as it is shown in a message: by its short escape, by itself where it
is a visible ASCII character, else by its two digits. -/
def escapeByte (byte : UInt8) : List Char :=
  if byte = 9 then ['\\', 't']
  else if byte = 10 then ['\\', 'n']
  else if byte = 13 then ['\\', 'r']
  else if byte = 34 then ['\\', '"']
  else if byte = 39 then ['\\', '\'']
  else if byte = 92 then ['\\', '\\']
  else if 0x20 ≤ byte ∧ byte < 0x7f then [Char.ofNat byte.toNat]
  else '\\' :: 'x' :: hexPair byte

end Text

namespace Descriptor

/-- A fault of a descriptor. Offsets count its bytes: those of a count are at
its first digit, those of a tag at the letter. -/
inductive Error where
  /-- The descriptor begins with a mark of byte order. -/
  | byteOrder (mark : UInt8)
  /-- Nothing follows the leading dot. -/
  | noFields (offset : Nat)
  /-- The count is not below `2 ^ 64`. -/
  | countOverflow (offset : Nat)
  /-- The descriptor ends after a count. -/
  | danglingCount (offset : Nat)
  /-- The letter stands for no tag. -/
  | unknownTag (offset : Nat) (byte : UInt8)
  /-- Text of a fixed width has no bytes. -/
  | emptyText (offset : Nat)
  /-- The count of a bit field is not one to eight. -/
  | bitCount (offset : Nat)
  deriving DecidableEq

namespace Error

/-- Where the fault lies. -/
def offset : Error → Nat
  | .byteOrder _ => 0
  | .noFields offset | .countOverflow offset | .danglingCount offset
  | .unknownTag offset _ | .emptyText offset | .bitCount offset => offset

/-- The sentence for a fault. -/
def message : Error → String
  | .byteOrder mark =>
    "byte-order prefix '" ++ String.singleton (Char.ofNat mark.toNat) ++ "' is not supported"
  | .noFields _ => "descriptor has no fields"
  | .countOverflow _ => "count prefix overflows"
  | .danglingCount _ => "count is not followed by a type tag"
  | .unknownTag _ byte => "unknown type tag '" ++ String.ofList (Text.escapeByte byte) ++ "'"
  | .emptyText _ => "fixed-length strings need at least 1 byte"
  | .bitCount _ => "bitfield sizes must be between 1 and 8"

/-- Advice, for the one fault that is a habit from elsewhere. -/
def hint : Error → Option String
  | .byteOrder _ => some "Packed fields are always big-endian; drop the prefix."
  | _ => none

/-- Every fault of a descriptor is an invalid format at a known offset. -/
def report (error : Error) : Report :=
  { kind := .invalidFormat
    message := some error.message
    hint := error.hint
    offset := some error.offset }

end Error

end Descriptor

end OrderPack
