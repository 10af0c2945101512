import OrderPack.Decimal.Binary64

/-! JSON values. Objects keep their members in the order of the keys and hold
each key once, so that two objects are equal when they say the same. -/
namespace OrderPack

/-- A number as a reader of JSON holds it: a whole number in its machine word if
it fits one, else a floating-point number. Negative zero is of the last kind. -/
inductive JsonNumber where
  /-- A whole number that is not negative. -/
  | natural (n : UInt64)
  /-- A whole number below zero. -/
  | negative (n : Int64)
  | real (negative : Bool) (magnitude : Binary64)
  deriving DecidableEq

/-- A JSON value. -/
inductive Json where
  | null
  | bool (value : Bool)
  | number (number : JsonNumber)
  | string (content : String)
  | array (items : List Json)
  | object (members : List (String × Json))

namespace Json

/-- The value as a whole number of an unsigned word. -/
def uint64? : Json → Option UInt64
  | .number (.natural n) => some n
  | _ => none

/-- The value as a whole number of a signed word. -/
def int64? : Json → Option Int64
  | .number (.natural n) => if n.toNat < UInt64.size / 2 then some n.toInt64 else none
  | .number (.negative n) => some n
  | _ => none

/-- The value as a text. -/
def string? : Json → Option String
  | .string content => some content
  | _ => none

/-- The number of an unsigned word. -/
def ofUInt64 (n : UInt64) : Json := .number (.natural n)

/-- The number of a signed word. -/
def ofInt64 (n : Int64) : Json :=
  .number (if n.toInt < 0 then .negative n else .natural n.toUInt64)

/-- A count or offset. -/
def ofNat (n : Nat) : Json := ofUInt64 (UInt64.ofNat n)

/-- Puts a member in its place; a later value replaces an earlier one. -/
def insertMember (key : String) (value : Json) :
    List (String × Json) → List (String × Json)
  | [] => [(key, value)]
  | (other, old) :: rest =>
    if key < other then (key, value) :: (other, old) :: rest
    else if key = other then (key, value) :: rest
    else (other, old) :: insertMember key value rest

/-- The object with these members, wherever each of them stands. -/
def ofMembers (members : List (String × Json)) : Json :=
  .object (members.foldl (fun sorted member => insertMember member.1 member.2 sorted) [])

end Json

end OrderPack
