import OrderPack.Descriptor.Layout
import OrderPack.Record.Decode

/-! Reading the values of a record back, all of them at once: as a new list, or
into slots that say which kind of value each of them takes. Padding is passed
over, and so are bytes after the last field. -/
namespace OrderPack.Record

/-- Why a record cannot be read. Fields are counted from zero, padding included. -/
inductive UnpackError where
  | emptyBuffer
  | descriptor (cause : Descriptor.Error)
  /-- The field at this place cannot be read. -/
  | field (place : Nat) (cause : ReadError)
  deriving DecidableEq

/-- The fault of a field is reported with its place in the descriptor. -/
def UnpackError.report : UnpackError → Report
  | .emptyBuffer => { kind := .invalidArgument, message := some "cannot unpack an empty buffer" }
  | .descriptor cause => cause.report
  | .field place cause => { cause.report with field := some place }

/-- The layout of the descriptor, if there is anything to read. -/
def openRecord (descriptor : String) (buffer : List UInt8) : Except UnpackError Layout :=
  if buffer.isEmpty then .error .emptyBuffer
  else (Layout.ofText descriptor).mapError .descriptor

/-- How far the reading has come: the bytes ahead, the fields passed, and the
values found in them. -/
structure Reading where
  reader : Reader
  field : Nat
  values : List Value
  deriving DecidableEq

namespace Reading

/-- Passes one field. -/
def step (reading : Reading) (field : Field) : Except UnpackError Reading :=
  if field.holdsValue then
    match field.read reading.reader with
    | (.ok value, reader) => .ok ⟨reader, reading.field + 1, reading.values ++ [value]⟩
    | (.error error, _) => .error (.field reading.field error)
  else
    match reading.reader.take field.size with
    | .ok (_, reader) => .ok { reading with reader, field := reading.field + 1 }
    | .error shortage => .error (.field reading.field (.shortage shortage))

/-- Passes all fields of a layout. -/
def run (layout : Layout) (buffer : List UInt8) : Except UnpackError Reading :=
  layout.foldFields step (fun _ error => .descriptor error) ⟨⟨0, buffer⟩, 0, []⟩

end Reading

/-- The values of a record. -/
def unpack (descriptor : String) (buffer : List UInt8) : Except UnpackError (List Value) :=
  match openRecord descriptor buffer with
  | .error error => .error error
  | .ok layout => (Reading.run layout buffer).map Reading.values

/-- Why slots cannot be filled. -/
inductive FillError where
  | unpack (cause : UnpackError)
  /-- All slots are filled, and the field at this offset has none. -/
  | tooFewSlots (filled offset : Nat)
  /-- The slot is for another kind than the field at this offset. -/
  | wrongSlot (slot : Nat) (tag : Tag) (kind : ValueKind) (offset : Nat)
  deriving DecidableEq

/-- A slot at fault is named by its own number. -/
def FillError.report : FillError → Report
  | .unpack cause => cause.report
  | .tooFewSlots filled offset =>
    { kind := .argumentCountMismatch
      message := some ("descriptor needs more than " ++ toString filled ++ " slot(s)")
      offset := some offset }
  | .wrongSlot slot tag kind offset =>
    { kind := .typeMismatch
      message := some ((Misfit.kind kind).message tag)
      field := some slot
      offset := some offset }

/-- How far the filling has come: the slots that have their value, and those that
wait for one. -/
structure Filling where
  reader : Reader
  field : Nat
  filled : List Value
  waiting : List Value
  deriving DecidableEq

namespace Filling

/-- All slots in their order. -/
def slots (filling : Filling) : List Value := filling.filled ++ filling.waiting

/-- Passes one field. A failure tells what the slots hold by then. -/
def step (filling : Filling) (field : Field) : Except (FillError × List Value) Filling :=
  let fail (error : FillError) : Except (FillError × List Value) Filling :=
    .error (error, filling.slots)
  if field.holdsValue then
    match filling.waiting with
    | [] => fail (.tooFewSlots filling.filled.length filling.reader.offset)
    | slot :: waiting =>
      if field.tag.kind? = some slot.kind then
        match field.read filling.reader with
        | (.ok value, reader) =>
          .ok ⟨reader, filling.field + 1, filling.filled ++ [value], waiting⟩
        | (.error error, _) => fail (.unpack (.field filling.field error))
      else
        fail (.wrongSlot filling.filled.length field.tag slot.kind filling.reader.offset)
  else
    match filling.reader.take field.size with
    | .ok (_, reader) => .ok { filling with reader, field := filling.field + 1 }
    | .error shortage => fail (.unpack (.field filling.field (.shortage shortage)))

/-- Passes all fields of a layout. -/
def run (layout : Layout) (buffer : List UInt8) (slots : List Value) :
    Except (FillError × List Value) Filling :=
  layout.foldFields step (fun filling error => (.unpack (.descriptor error), filling.slots))
    ⟨⟨0, buffer⟩, 0, [], slots⟩

end Filling

/-- Reads the values of a record into slots. The answer is how many were filled,
and what the slots hold afterwards: also after a failure the slots before it have
their values, and slots that no field reached are as they were. -/
def unpackInto (descriptor : String) (buffer : List UInt8) (slots : List Value) :
    Except FillError Nat × List Value :=
  match openRecord descriptor buffer with
  | .error error => (.error (.unpack error), slots)
  | .ok layout =>
    match Filling.run layout buffer slots with
    | .ok filling => (.ok filling.filled.length, filling.slots)
    | .error (error, slots) => (.error error, slots)

end OrderPack.Record
