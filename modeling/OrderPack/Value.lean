import OrderPack.Field
import OrderPack.Text.Hex
import OrderPack.Text.Quoted

/-! The values that go into records and come out of them. -/
namespace OrderPack

/-- A value of a record. Integers keep their sign class: a signed value never
stands for an unsigned one, even where the numbers agree. -/
inductive Value where
  | int64 (n : Int64)
  | uint64 (n : UInt64)
  | text (content : String)
  | bytes (content : List UInt8)
  deriving DecidableEq

namespace Value

/-- The kind that a field must have to hold this value. -/
def kind : Value → ValueKind
  | .int64 _ => .int64
  | .uint64 _ => .uint64
  | .text _ => .text
  | .bytes _ => .bytes

/-- The value a slot holds before anything is read into it. -/
def empty : ValueKind → Value
  | .int64 => .int64 0
  | .uint64 => .uint64 0
  | .text => .text ""
  | .bytes => .bytes []

/-- A slot made for a kind accepts that kind. -/
@[simp] theorem kind_empty (kind : ValueKind) : (empty kind).kind = kind := by
  cases kind <;> rfl

def int64? : Value → Option Int64
  | .int64 n => some n
  | _ => none

def uint64? : Value → Option UInt64
  | .uint64 n => some n
  | _ => none

def text? : Value → Option String
  | .text content => some content
  | _ => none

def bytes? : Value → Option (List UInt8)
  | .bytes content => some content
  | _ => none

/-- A value for reading: text is quoted and bytes are listed in hexadecimal. -/
def display : Value → String
  | .int64 n => toString n.toInt
  | .uint64 n => toString n.toNat
  | .text content => Text.quote content
  | .bytes content => "[" ++ String.intercalate ", " (content.map Text.hexByte) ++ "]"

end Value

end OrderPack
