import OrderPack.Descriptor.Cursor
import OrderPack.Record.Unpack

/-! Reading the values of a record one at a time. Every call hands back the
unpacker after it, also when it fails: what a failed call left behind is what the
next one starts from. -/
namespace OrderPack.Record

/-- A record under way: the fields and bytes ahead, and the fields passed. Once
iteration has ended it stays so. -/
structure Unpacker where
  layout : Layout
  reader : Reader
  field : Nat
  ended : Bool
  deriving DecidableEq

namespace Unpacker

/-- An unpacker before the first field. -/
def ofText (descriptor : String) (buffer : List UInt8) : Except UnpackError Unpacker :=
  (openRecord descriptor buffer).map fun layout => ⟨layout, ⟨0, buffer⟩, 0, false⟩

/-- The offset of the next byte. -/
def position (unpacker : Unpacker) : Nat := unpacker.reader.offset

/-- Walks to the next field that holds a value, past any padding before it. The
reader and the count of fields move with the padding. Padding that runs short is
dropped from the layout and not counted. -/
def seek (reader : Reader) (passed : Nat) :
    Layout → Except UnpackError (Option Field) × Layout × Reader × Nat
  | .ended => (.ok none, .ended, reader, passed)
  | .single field rest =>
    if field.holdsValue then (.ok (some field), rest, reader, passed)
    else
      match reader.take field.size with
      | .ok (_, reader) => seek reader (passed + 1) rest
      | .error shortage => (.error (.field passed (.shortage shortage)), rest, reader, passed)
  | .repeated _ 0 rest => seek reader passed rest
  | .repeated scalar (copies + 1) rest =>
    (.ok (some (Field.ofScalar scalar)), .repeated scalar copies rest, reader, passed)
  | .malformed error rest => (.error (.descriptor error), rest, reader, passed)
  | .stuck error => (.error (.descriptor error), .stuck error, reader, passed)

/-- The next field that holds a value, if one is left. -/
def nextField (unpacker : Unpacker) : Except UnpackError (Option Field) × Unpacker :=
  let (answer, layout, reader, field) := seek unpacker.reader unpacker.field unpacker.layout
  (answer, { unpacker with layout, reader, field })

/-- Reads a value at the present place, as if it were this field's. The field is
counted whether or not it can be read. -/
def readValue (unpacker : Unpacker) (field : Field) : Except UnpackError Value × Unpacker :=
  let (answer, reader) := field.read unpacker.reader
  (answer.mapError (.field unpacker.field), { unpacker with reader, field := unpacker.field + 1 })

/-- The next value, if a field is left. -/
def nextValue (unpacker : Unpacker) : Except UnpackError (Option Value) × Unpacker :=
  match unpacker.nextField with
  | (.error error, unpacker) => (.error error, unpacker)
  | (.ok none, unpacker) => (.ok none, unpacker)
  | (.ok (some field), unpacker) =>
    let (answer, unpacker) := unpacker.readValue field
    (answer.map some, unpacker)

/-- One turn of iteration: the next value or the failure to read it, and nothing
ever after the end or a failure. -/
def next (unpacker : Unpacker) : Option (Except UnpackError Value) × Unpacker :=
  if unpacker.ended then (none, unpacker)
  else
    match unpacker.nextValue with
    | (.ok (some value), unpacker) => (some (.ok value), unpacker)
    | (.ok none, unpacker) => (none, { unpacker with ended := true })
    | (.error error, unpacker) => (some (.error error), { unpacker with ended := true })

end Unpacker

end OrderPack.Record
