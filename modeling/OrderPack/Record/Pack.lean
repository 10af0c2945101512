import OrderPack.Descriptor.Layout
import OrderPack.Record.Encode

/-! Packing a list of values into the bytes of a record. The fields are sized
first, and whatever is wrong with the descriptor or the values is found by then;
the bytes are written in a second walk. Values that no field is left for are
ignored. -/
namespace OrderPack.Record

/-- A record is no longer than this. -/
def maxLength : Nat := 268435456

/-- Why values cannot be packed. Fields are counted from zero, padding included. -/
inductive PackError where
  | descriptor (cause : Descriptor.Error)
  /-- The field has no value left, after so many were given. -/
  | missing (field given : Nat)
  /-- The value for the field does not suit it. -/
  | misfit (field : Nat) (tag : Tag) (cause : Misfit)
  /-- With this field the record would be too long. -/
  | tooLong (field : Nat)
  /-- The record would have no bytes. -/
  | empty
  /-- A value is wanted for writing that the sizing had found. -/
  | valuesShrank
  /-- A value does not suit its field any more when it is written. -/
  | unwritable (tag : Tag) (cause : Misfit)
  deriving DecidableEq

namespace PackError

/-- A shortage of values and a value that does not suit are told apart, so that a
caller can tell a short list from a wrong one. -/
def report : PackError → Report
  | .descriptor cause => cause.report
  | .missing field given =>
    { kind := .argumentCountMismatch
      message := some ("descriptor needs more than " ++ toString given ++ " value(s)")
      field := some field }
  | .misfit field tag cause =>
    { kind := .typeMismatch, message := some (cause.message tag), field := some field }
  | .tooLong field =>
    { kind := .invalidArgument
      message := some ("packed size exceeds " ++ toString maxLength ++ " bytes")
      field := some field }
  | .empty => { kind := .invalidArgument, message := some "packed result would be empty" }
  | .valuesShrank => { kind := .internal, message := some "value list shrank between passes" }
  | .unwritable tag cause => { kind := .typeMismatch, message := some (cause.message tag) }

end PackError

/-- How far the sizing has come: the values left, the fields passed, and the
bytes they take. -/
structure Sizing where
  values : List Value
  field : Nat
  total : Nat
  deriving DecidableEq

namespace Sizing

/-- Counts the bytes of one more field, as long as the record stays in bounds. -/
def grow (sizing : Sizing) (values : List Value) (size : Nat) : Except PackError Sizing :=
  let total := sizing.total + size
  if total ≤ maxLength then .ok ⟨values, sizing.field + 1, total⟩
  else .error (.tooLong sizing.field)

/-- Passes one field. Padding takes no value. -/
def step (given : Nat) (sizing : Sizing) (field : Field) : Except PackError Sizing :=
  if field.holdsValue then
    match sizing.values with
    | [] => .error (.missing sizing.field given)
    | value :: values =>
      match field.encodedSize value with
      | .error misfit => .error (.misfit sizing.field field.tag misfit)
      | .ok size => sizing.grow values size
  else sizing.grow sizing.values field.size

/-- Passes all fields of a layout. -/
def run (layout : Layout) (values : List Value) : Except PackError Sizing :=
  layout.foldFields (step values.length) (fun _ error => .descriptor error) ⟨values, 0, 0⟩

end Sizing

/-- How far the writing has come: the values left and the bytes so far. -/
structure Writing where
  values : List Value
  bytes : List UInt8

namespace Writing

/-- Writes one field. -/
def step (writing : Writing) (field : Field) : Except PackError Writing :=
  if field.holdsValue then
    match writing.values with
    | [] => .error .valuesShrank
    | value :: values =>
      match field.encode value with
      | .error misfit => .error (.unwritable field.tag misfit)
      | .ok bytes => .ok ⟨values, writing.bytes ++ bytes⟩
  else .ok { writing with bytes := writing.bytes ++ Field.zeros field.size }

/-- Writes all fields of a layout after what the buffer holds. -/
def run (layout : Layout) (values : List Value) (buffer : List UInt8) :
    Except PackError Writing :=
  layout.foldFields step (fun _ error => .descriptor error) ⟨values, buffer⟩

end Writing

/-- The length of the record that the values make, found without writing it. -/
def packedSize (descriptor : String) (values : List Value) : Except PackError Nat :=
  match Layout.ofText descriptor with
  | .error error => .error (.descriptor error)
  | .ok layout => (Sizing.run layout values).map Sizing.total

/-- Packs into a buffer that may still hold an earlier record. What it held is cut
off before anything else, and a failure leaves nothing. A record has at least one
byte. -/
def packInto (descriptor : String) (values : List Value) (buffer : List UInt8) :
    Except PackError Unit × List UInt8 :=
  let cleared := buffer.take 0
  match Layout.ofText descriptor with
  | .error error => (.error (.descriptor error), cleared)
  | .ok layout =>
    match Sizing.run layout values with
    | .error error => (.error error, cleared)
    | .ok sizing =>
      if sizing.total = 0 then (.error .empty, cleared)
      else
        match Writing.run layout values cleared with
        | .error error => (.error error, cleared)
        | .ok writing => (.ok (), writing.bytes)

/-- The record that the values make. -/
def pack (descriptor : String) (values : List Value) : Except PackError (List UInt8) :=
  match packInto descriptor values [] with
  | (.ok (), bytes) => .ok bytes
  | (.error error, _) => .error error

end OrderPack.Record
