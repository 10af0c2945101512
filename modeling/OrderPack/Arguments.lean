import OrderPack.Descriptor.Layout
import OrderPack.Json.Printer
import OrderPack.Value

/-! Values as JSON. The JSON form does not tell signed from unsigned integers or
bytes from lists of numbers; reading it back takes the kinds from a descriptor, a
value for each field that holds one. -/
namespace OrderPack

/-- A value as JSON: a number, a string, or the bytes as an array of numbers. -/
def Value.toJson : Value → Json
  | .int64 n => .ofInt64 n
  | .uint64 n => .ofUInt64 n
  | .text content => .string content
  | .bytes content => .array (content.map fun byte => .ofNat byte.toNat)

namespace Json

/-- A number below 256 as a byte. -/
def byte? (item : Json) : Option UInt8 :=
  match item.uint64? with
  | some n => if n.toNat < 256 then some (UInt8.ofNat n.toNat) else none
  | none => none

/-- A value as bytes: those of a text, or an array of numbers below 256. -/
def bytes? : Json → Option (List UInt8)
  | .string content => some (Text.bytes content)
  | .array items => items.mapM byte?
  | _ => none

end Json

namespace Arguments

/-- Why JSON arguments are not values for a descriptor. Items are counted from
zero, and kept as text since they are only shown. -/
inductive Error where
  | notArray
  | descriptor (cause : Descriptor.Error)
  /-- The item cannot be of the kind that its field holds. -/
  | wrongKind (item field : Nat) (kind : ValueKind) (shown : String)
  /-- The item has no field, and nothing says which kind of value it is. -/
  | noKind (item : Nat) (shown : String)
  deriving DecidableEq

/-- A misfit is reported with its field, as it would be when packing. -/
def Error.report : Error → Report
  | .notArray =>
    { kind := .usage
      message := some "pack arguments must be a JSON array"
      hint := some "Example: wtpack pack Sq '[\"key\", -1]'" }
  | .descriptor cause => cause.report
  | .wrongKind item field kind shown =>
    { kind := .typeMismatch
      message := some ("argument " ++ toString item ++ " must be " ++ kind.describe ++ ", got "
        ++ shown)
      field := some field }
  | .noKind item shown =>
    { kind := .usage
      message := some ("argument " ++ toString item ++ " has no packable type: " ++ shown) }

/-- The first `wanted` fields that hold a value, each with its place among all
fields and its kind. `place` is that of the next field. The descriptor is read
only so far, and a fault beyond is not met. -/
def places : (wanted place : Nat) → Layout → Except Descriptor.Error (List (Nat × ValueKind))
  | 0, _, _ => .ok []
  | _ + 1, _, .ended => .ok []
  | wanted + 1, place, .single field rest =>
    match field.tag.kind? with
    | some kind => (places wanted (place + 1) rest).map ((place, kind) :: ·)
    | none => places (wanted + 1) (place + 1) rest
  | wanted + 1, place, .repeated scalar copies rest =>
    let taken := min copies (wanted + 1)
    let here := (List.range taken).map fun i => (place + i, scalar.kind)
    (places (wanted + 1 - taken) (place + copies) rest).map (here ++ ·)
  | _ + 1, _, .malformed error _ | _ + 1, _, .stuck error => .error error

/-- An item as a value of a kind, if it can be one. -/
def coerce? : ValueKind → Json → Option Value
  | .int64, item => item.int64?.map .int64
  | .uint64, item => item.uint64?.map .uint64
  | .text, item => item.string?.map .text
  | .bytes, item => item.bytes?.map .bytes

/-- An item as the value it most plainly is. Packing ignores it, as no field is
left for it, but it must be a value. -/
def natural? (item : Json) : Option Value :=
  (coerce? .uint64 item).or <| (coerce? .int64 item).or <| (coerce? .text item).or <|
    coerce? .bytes item

/-- The values of the items from number `index` on, with the fields that are left
for them. -/
def convert : (index : Nat) → List (Nat × ValueKind) → List Json → Except Error (List Value)
  | _, _, [] => .ok []
  | index, (place, kind) :: rest, item :: items =>
    match coerce? kind item with
    | some value => (convert (index + 1) rest items).map (value :: ·)
    | none => .error (.wrongKind index place kind item.render)
  | index, [], item :: items =>
    match natural? item with
    | some value => (convert (index + 1) [] items).map (value :: ·)
    | none => .error (.noKind index item.render)

/-- The values that JSON arguments stand for under a descriptor. -/
def values (descriptor : String) (arguments : Json) : Except Error (List Value) :=
  match arguments with
  | .array items =>
    match Layout.ofText descriptor with
    | .error cause => .error (.descriptor cause)
    | .ok layout =>
      match places items.length 0 layout with
      | .error cause => .error (.descriptor cause)
      | .ok kinds => convert 0 kinds items
  | _ => .error .notArray

end Arguments

end OrderPack
