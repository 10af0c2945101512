import OrderPack.Value
import OrderPack.Varint.Decode
import OrderPack.Record.Encode

/-! Reading one field of a record. The reader after a failure is part of the
answer: a failed field leaves it in place, except that a length already read
and text already taken stay behind it. -/
namespace OrderPack

/-- Why a field cannot be read. Offsets are those at which its bytes begin. -/
inductive ReadError where
  /-- Padding was asked for a value. -/
  | noValue
  /-- The buffer is too short. -/
  | shortage (lack : Shortage)
  /-- A number of variable length cannot be read. -/
  | varint (cause : Varint.Error)
  /-- No NUL closes the text. -/
  | unterminated (offset : Nat)
  /-- The text is not valid UTF-8. -/
  | notText (offset : Nat) (fault : Text.Utf8Fault)
  deriving DecidableEq

/-- What a field lacks is told apart from what is wrong with it. -/
def ReadError.report : ReadError → Report
  | .noValue => { kind := .internal, message := some "padding has no value" }
  | .shortage lack => lack.report
  | .varint cause => cause.report
  | .unterminated offset =>
    { kind := .truncatedInput
      message := some "string is missing its NUL terminator"
      offset := some offset }
  | .notText offset fault =>
    { kind := .corrupt
      message := some "string field is not valid UTF-8"
      offset := some offset
      causes := [fault.message] }

namespace Reader

/-- The next `count` bytes, or the reader as it was. -/
def takeBytes (reader : Reader) (count : Nat) : Except ReadError (List UInt8) × Reader :=
  match reader.take count with
  | .ok (bytes, after) => (.ok bytes, after)
  | .error shortage => (.error (.shortage shortage), reader)

/-- The text of some bytes that begin at `offset`. -/
def text (offset : Nat) (bytes : List UInt8) : Except ReadError Value :=
  match Text.ofBytes bytes with
  | .ok content => .ok (.text content)
  | .error fault => .error (.notText offset fault)

/-- Text in a fixed width; it ends at its first NUL, if it has one. -/
def fixedText (reader : Reader) (width : Nat) : Except ReadError Value × Reader :=
  match reader.takeBytes width with
  | (.ok bytes, after) => (text reader.offset (Field.beforeNul bytes), after)
  | (.error error, after) => (.error error, after)

/-- Text up to the next NUL, which is passed over. -/
def terminatedText (reader : Reader) : Except ReadError Value × Reader :=
  let bytes := Field.beforeNul reader.rest
  if bytes.length < reader.rest.length then
    match text reader.offset bytes with
    | .ok value =>
      (.ok value, ⟨reader.offset + bytes.length + 1, reader.rest.drop (bytes.length + 1)⟩)
    | .error error => (.error error, reader)
  else (.error (.unterminated reader.offset), reader)

/-- Bytes behind their length. -/
def sizedBytes (reader : Reader) : Except ReadError Value × Reader :=
  match Varint.decodeNat reader with
  | .error error => (.error (.varint error), reader)
  | .ok (count, reader) =>
    let (answer, reader) := reader.takeBytes count
    (answer.map .bytes, reader)

/-- A number in one byte. -/
def byte (reader : Reader) (value : Nat → Value) : Except ReadError Value × Reader :=
  let (answer, reader) := reader.takeBytes 1
  (answer.map fun bytes => value (Varint.fromBigEndian bytes), reader)

end Reader

namespace Field

/-- Reads the value of this field. -/
def read (field : Field) (reader : Reader) : Except ReadError Value × Reader :=
  match field.tag with
  | .padding => (.error .noValue, reader)
  | .fixedText => reader.fixedText field.size
  | .text => if field.sized then reader.fixedText field.size else reader.terminatedText
  | .raw =>
    let count := if field.sized then field.size else reader.rest.length
    let (answer, reader) := reader.takeBytes count
    (answer.map .bytes, reader)
  | .sizedRaw => reader.sizedBytes
  | .bits | .scalar .uint8 => reader.byte fun n => .uint64 (UInt64.ofNat n)
  | .scalar .int8 => reader.byte fun n => .int64 (Int64.ofInt (n - 128))
  | .scalar (.int _) =>
    match Varint.decodeSigned reader with
    | .ok (n, after) => (.ok (.int64 n), after)
    | .error error => (.error (.varint error), reader)
  | .scalar (.uint _) =>
    match Varint.decodeUnsigned reader with
    | .ok (n, after) => (.ok (.uint64 n), after)
    | .error error => (.error (.varint error), reader)
  | .scalar .recordId =>
    let (answer, reader) := reader.takeBytes 8
    (answer.map fun bytes => .uint64 (UInt64.ofNat (Varint.fromBigEndian bytes)), reader)

end Field

end OrderPack
