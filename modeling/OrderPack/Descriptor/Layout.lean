import OrderPack.Descriptor.Error
import OrderPack.Field

/-! A descriptor is a row of items: an optional decimal count and a tag letter.
Its layout holds the fields these items stand for, in order and with their
repetitions still counted, and the places where the descriptor is malformed. A
count of many digits thus costs nothing until its fields are asked for.

`Layout.scan` turns the bytes of a descriptor into its layout in one pass.
`Layout.fields` spells a sound layout out, and `Layout.foldFields` walks it
without doing so. -/
namespace OrderPack

/-- The fields of a descriptor from some place on. -/
inductive Layout where
  /-- The descriptor ends here. -/
  | ended
  /-- One field, sized by its count if it has one. -/
  | single (field : Field) (rest : Layout)
  /-- Copies of a scalar field; a count of zero leaves none. -/
  | repeated (scalar : Scalar) (copies : Nat) (rest : Layout)
  /-- A fault, reported once to whoever comes by; what follows can be read. -/
  | malformed (error : Descriptor.Error) (rest : Layout)
  /-- A letter that no reading gets past. -/
  | stuck (error : Descriptor.Error)
  deriving DecidableEq

namespace Layout

/-- Counts are machine words. -/
def countLimit : Nat := UInt64.size

/-- The value of a decimal digit given as an ASCII byte. -/
def digit? (byte : UInt8) : Option Nat :=
  if 48 ≤ byte.toNat ∧ byte.toNat ≤ 57 then some (byte.toNat - 48) else none

/-- The layout of one item, whose letter stands at `offset`. Text of width zero
and bit fields of impossible width are faults of the count alone, so the letter
is still good for a field without one. -/
def ofItem (offset : Nat) (count : Option Nat) (tag : Tag) (last : Bool) (rest : Layout) : Layout :=
  let item : Field := ⟨tag, count.getD 1, count.isSome⟩
  let uncounted : Field := ⟨tag, 1, false⟩
  match tag with
  | .padding | .text => .single item rest
  | .fixedText =>
    if 1 ≤ item.size then .single item rest
    else .malformed (.emptyText offset) (.single uncounted rest)
  | .bits =>
    if 1 ≤ item.size ∧ item.size ≤ 8 then .single item rest
    else .malformed (.bitCount offset) (.single uncounted rest)
  | .raw | .sizedRaw =>
    -- Bytes of open length need their length unless the end of the buffer is theirs.
    .single { item with tag := if count.isNone && !last then .sizedRaw else .raw } rest
  | .scalar scalar => .repeated scalar item.size rest

/-- A count under way: its value so far, and the offset of its first digit. -/
structure Count where
  value : Nat
  offset : Nat

/-- The layout of the bytes of a descriptor, the first of which stands at
`offset`. A digit that would take the count out of range is reported, and then
begins a count of its own. -/
def scan (count : Option Count) (offset : Nat) : List UInt8 → Layout
  | [] =>
    match count with
    | none => .ended
    | some count => .malformed (.danglingCount count.offset) .ended
  | byte :: rest =>
    match digit? byte with
    | some digit =>
      match count with
      | none => scan (some ⟨digit, offset⟩) (offset + 1) rest
      | some count =>
        if count.value * 10 + digit < countLimit then
          scan (some ⟨count.value * 10 + digit, count.offset⟩) (offset + 1) rest
        else
          .malformed (.countOverflow count.offset) (scan (some ⟨digit, offset⟩) (offset + 1) rest)
    | none =>
      match Tag.ofByte? byte with
      | none => .stuck (.unknownTag offset byte)
      | some tag =>
        ofItem offset (count.map Count.value) tag rest.isEmpty (scan none (offset + 1) rest)

/-- The descriptor that an empty text stands for: raw bytes to the end. -/
def defaultText : String := "u"

/-- The layout of a descriptor. Marks of byte order are refused outright, since
numbers are always stored with their most significant byte first; a leading dot
is passed over. Faults further on stay in the layout until they are reached. -/
def ofText (text : String) : Except Descriptor.Error Layout :=
  match Text.bytes (if text.isEmpty then defaultText else text) with
  | [] => .error (.noFields 0)
  | first :: rest =>
    match Char.ofNat first.toNat with
    | '@' | '<' | '>' => .error (.byteOrder first)
    | '.' => if rest.isEmpty then .error (.noFields 1) else .ok (scan none 1 rest)
    | _ => .ok (scan none 0 (first :: rest))

/-- The first fault, found without spelling the fields out. -/
def fault? : Layout → Option Descriptor.Error
  | .ended => none
  | .single _ rest | .repeated _ _ rest => rest.fault?
  | .malformed error _ | .stuck error => some error

/-- Every field in order, or the first fault. -/
def fields : Layout → Except Descriptor.Error (List Field)
  | .ended => .ok []
  | .single field rest => rest.fields.map (field :: ·)
  | .repeated scalar copies rest =>
    rest.fields.map (List.replicate copies (Field.ofScalar scalar) ++ ·)
  | .malformed error _ | .stuck error => .error error

/-- Applies a step to the state `copies` times, or until the step fails. -/
def repeatStep {σ ε : Type} (step : σ → Except ε σ) : (copies : Nat) → σ → Except ε σ
  | 0, state => .ok state
  | copies + 1, state =>
    match step state with
    | .ok state => repeatStep step copies state
    | .error error => .error error

/-- Takes a state through the fields in order. The walk ends with the state
after the last field, or at the first step that fails, or at the first fault of
the descriptor, of which `fault` then speaks. -/
def foldFields {σ ε : Type} (step : σ → Field → Except ε σ)
    (fault : σ → Descriptor.Error → ε) : Layout → σ → Except ε σ
  | .ended, state => .ok state
  | .single field rest, state =>
    match step state field with
    | .ok state => foldFields step fault rest state
    | .error error => .error error
  | .repeated scalar copies rest, state =>
    match repeatStep (step · (Field.ofScalar scalar)) copies state with
    | .ok state => foldFields step fault rest state
    | .error error => .error error
  | .malformed error _, state | .stuck error, state => .error (fault state error)

end Layout

end OrderPack
