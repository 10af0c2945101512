import OrderPack.Decimal.Shortest
import OrderPack.Json.Basic
import OrderPack.Text.Hex

/-! JSON values as text, either without any white space or laid out over lines. -/
namespace OrderPack

namespace Text

/-- One character of a JSON string: only what the format forbids is escaped. -/
def jsonChar (c : Char) : List Char :=
  if c = '"' then ['\\', '"']
  else if c = '\\' then ['\\', '\\']
  else if c = '\x08' then ['\\', 'b']
  else if c = '\x0c' then ['\\', 'f']
  else if c = '\n' then ['\\', 'n']
  else if c = '\r' then ['\\', 'r']
  else if c = '\t' then ['\\', 't']
  else if c.toNat < 0x20 then '\\' :: 'u' :: '0' :: '0' :: hexPair (UInt8.ofNat c.toNat)
  else [c]

/-- A text as a JSON string. -/
def jsonString (text : String) : List Char :=
  '"' :: text.toList.flatMap jsonChar ++ ['"']

end Text

namespace Binary64

/-- The decimals that are written without an exponent: those whose point stands
at most four places before the digits and at most sixteen places into them. -/
def positional (pointAt : Int) : Bool := -5 < pointAt && pointAt ≤ 16

/-- The shortest decimal as text. There is always a digit on each side of the
point, and an exponent has its sign. -/
def render (x : Binary64) : List Char :=
  if x.mantissa = 0 then ['0', '.', '0'] else
  let decimal := x.shortest
  let digits := (toString decimal.digits).toList
  let pointAt : Int := digits.length + decimal.exponent
  if positional pointAt then
    if 0 ≤ decimal.exponent then
      digits ++ List.replicate decimal.exponent.toNat '0' ++ ['.', '0']
    else if 0 < pointAt then
      digits.take pointAt.toNat ++ '.' :: digits.drop pointAt.toNat
    else
      ['0', '.'] ++ List.replicate (-pointAt).toNat '0' ++ digits
  else
    let power := pointAt - 1
    let fraction := if digits.length = 1 then [] else '.' :: digits.drop 1
    digits.take 1 ++ fraction ++ ['e', if power < 0 then '-' else '+']
      ++ (toString power.natAbs).toList

end Binary64

/-- A number as text. -/
def JsonNumber.render : JsonNumber → List Char
  | .natural n => (toString n.toNat).toList
  | .negative n => (toString n.toInt).toList
  | .real minus magnitude => (if minus then ['-'] else []) ++ magnitude.render

namespace Json

/-- Parts with a comma between any two. -/
def commaSeparated : List (List Char) → List Char
  | [] => []
  | [part] => part
  | part :: rest => part ++ ',' :: commaSeparated rest

mutual

/-- A value as characters. -/
def chars : Json → List Char
  | .null => ['n', 'u', 'l', 'l']
  | .bool true => ['t', 'r', 'u', 'e']
  | .bool false => ['f', 'a', 'l', 's', 'e']
  | .number held => held.render
  | .string content => Text.jsonString content
  | .array items => '[' :: commaSeparated (itemChars items) ++ [']']
  | .object members => '\x7b' :: commaSeparated (memberChars members) ++ ['\x7d']

/-- The items of an array, each as characters. -/
def itemChars : List Json → List (List Char)
  | [] => []
  | item :: rest => item.chars :: itemChars rest

/-- The members of an object, each as characters. -/
def memberChars : List (String × Json) → List (List Char)
  | [] => []
  | (key, value) :: rest => (Text.jsonString key ++ ':' :: value.chars) :: memberChars rest

end

/-- A value as text. -/
def render (value : Json) : String := String.ofList value.chars

/-- The start of a line that is moved in so far. -/
def lineStart (margin : Nat) : List Char := '\n' :: List.replicate margin ' '

/-- Parts on lines of their own, moved in further than the brackets around them. -/
def bracketed (margin : Nat) (opening closing : Char) (parts : List (List Char)) : List Char :=
  if parts.isEmpty then [opening, closing]
  else opening :: commaSeparated (parts.map (lineStart (margin + 2) ++ ·)) ++ lineStart margin
    ++ [closing]

mutual

/-- A value as characters over several lines, the first of which has begun. -/
def prettyChars (margin : Nat) : Json → List Char
  | .array items => bracketed margin '[' ']' (prettyItems (margin + 2) items)
  | .object members => bracketed margin '\x7b' '\x7d' (prettyMembers (margin + 2) members)
  | scalar => scalar.chars

/-- The items of an array, each as characters over several lines. -/
def prettyItems (margin : Nat) : List Json → List (List Char)
  | [] => []
  | item :: rest => prettyChars margin item :: prettyItems margin rest

/-- The members of an object, each as characters over several lines. -/
def prettyMembers (margin : Nat) : List (String × Json) → List (List Char)
  | [] => []
  | (key, value) :: rest =>
    (Text.jsonString key ++ ':' :: ' ' :: prettyChars margin value) :: prettyMembers margin rest

end

/-- A value as text over several lines. -/
def pretty (value : Json) : String := String.ofList (prettyChars 0 value)

end Json

end OrderPack
