import OrderPack.Json.Basic

/-! Reading JSON text. The reader takes exactly one value with white space around
it. It is strict about the grammar, refuses arrays and objects nested deeper than
`Json.maxDepth`, and refuses numbers beyond the floating-point range. Every reader
takes the characters ahead and hands back those it left. -/
namespace OrderPack

namespace JsonNumber

/-- The value of a decimal digit. -/
def digit? (c : Char) : Option Nat :=
  if '0' ≤ c ∧ c ≤ '9' then some (c.toNat - '0'.toNat) else none

/-- Whether a significand has room for another digit in a machine word. -/
def hasRoom (significand digit : Nat) : Bool := significand * 10 + digit < UInt64.size

/-- A floating-point number by its decimal significand and exponent. -/
def real? (negative : Bool) (significand : Nat) (power : Int) : Option JsonNumber :=
  (Binary64.ofDecimal? significand power).map (.real negative)

/-- Drops the digits ahead. -/
def skipDigits (chars : List Char) : List Char := chars.dropWhile fun c => (digit? c).isSome

/-- An exponent is held in a signed word of 32 bits. -/
def exponentLimit : Nat := UInt32.size / 2

/-- Reads the digits of an exponent, of which `exponent` is the value so far. An
exponent that is itself out of range leaves zero or takes the number out of range. -/
def exponentDigits (negative : Bool) (significand : Nat) (power : Int) (down : Bool)
    (exponent : Nat) : List Char → Option (JsonNumber × List Char)
  | [] => finish []
  | c :: rest =>
    match digit? c with
    | none => finish (c :: rest)
    | some digit =>
      if exponent * 10 + digit < exponentLimit then
        exponentDigits negative significand power down (exponent * 10 + digit) rest
      else if significand ≠ 0 ∧ ¬ down then none
      else some (.real negative Binary64.zero, skipDigits rest)
where
  /-- The number, once the exponent is complete. -/
  finish (rest : List Char) : Option (JsonNumber × List Char) := do
    let number ← real? negative significand (if down then power - exponent else power + exponent)
    return (number, rest)

/-- Reads what follows the letter `e`: a sign if there is one, then digits. -/
def exponentPart (negative : Bool) (significand : Nat) (power : Int) (chars : List Char) :
    Option (JsonNumber × List Char) :=
  let (down, chars) : Bool × List Char :=
    match chars with
    | '+' :: rest => (false, rest)
    | '-' :: rest => (true, rest)
    | _ => (false, chars)
  match chars with
  | [] => none
  | c :: rest => do exponentDigits negative significand power down (← digit? c) rest

/-- Ends a floating-point number: with an exponent, or without one. -/
def closeReal (negative : Bool) (significand : Nat) (power : Int) :
    List Char → Option (JsonNumber × List Char)
  | 'e' :: rest | 'E' :: rest => exponentPart negative significand power rest
  | rest => do return (← real? negative significand power, rest)

/-- Reads the digits after the point. Those for which the significand has no room
are passed over. `any` tells whether a digit has been read: one at least must be. -/
def fractionDigits (negative : Bool) (significand : Nat) (power : Int) (any : Bool) :
    List Char → Option (JsonNumber × List Char)
  | [] => if any then closeReal negative significand power [] else none
  | c :: rest =>
    match digit? c with
    | some digit =>
      if hasRoom significand digit then
        fractionDigits negative (significand * 10 + digit) (power - 1) true rest
      else
        closeReal negative significand power (skipDigits rest)
    | none => if any then closeReal negative significand power (c :: rest) else none

/-- Ends a number whose whole part fits a machine word. A whole number below the
least signed word, and negative zero, are floating-point numbers. -/
def closeWhole (negative : Bool) (significand : Nat) :
    List Char → Option (JsonNumber × List Char)
  | '.' :: rest => fractionDigits negative significand 0 false rest
  | 'e' :: rest | 'E' :: rest => exponentPart negative significand 0 rest
  | rest =>
    if ¬ negative then some (.natural (UInt64.ofNat significand), rest)
    else if 1 ≤ significand ∧ significand ≤ UInt64.size / 2 then
      some (.negative (Int64.ofInt (-significand)), rest)
    else do
      return (← real? true significand 0, rest)

/-- Ends a number whose whole part does not fit: further digits of it only count
towards the exponent. -/
def closeLong (negative : Bool) (significand : Nat) (power : Int) :
    List Char → Option (JsonNumber × List Char)
  | '.' :: rest => fractionDigits negative significand power false rest
  | 'e' :: rest | 'E' :: rest => exponentPart negative significand power rest
  | [] => do return (← real? negative significand power, [])
  | c :: rest =>
    if (digit? c).isSome then closeLong negative significand (power + 1) rest
    else do return (← real? negative significand power, c :: rest)

/-- Reads the whole part of a number after its first digit. -/
def wholeDigits (negative : Bool) (significand : Nat) :
    List Char → Option (JsonNumber × List Char)
  | [] => closeWhole negative significand []
  | c :: rest =>
    match digit? c with
    | none => closeWhole negative significand (c :: rest)
    | some digit =>
      if hasRoom significand digit then wholeDigits negative (significand * 10 + digit) rest
      else closeLong negative significand 1 rest

/-- Reads a number after its sign. A whole part of several digits does not begin
with a zero. -/
def unsigned (negative : Bool) : List Char → Option (JsonNumber × List Char)
  | [] => none
  | '0' :: rest =>
    match rest with
    | [] => closeWhole negative 0 []
    | c :: _ => if (digit? c).isSome then none else closeWhole negative 0 rest
  | c :: rest => do wholeDigits negative (← digit? c) rest

end JsonNumber

namespace Json

/-- Arrays and objects are nested less deep than this. -/
def maxDepth : Nat := 128

/-- Drops the white space ahead, of which JSON knows four characters. -/
def skipSpace (chars : List Char) : List Char :=
  chars.dropWhile fun c => c == ' ' || c == '\n' || c == '\t' || c == '\r'

/-- The value of a hexadecimal digit. -/
def hexValue? (c : Char) : Option Nat :=
  if '0' ≤ c ∧ c ≤ '9' then some (c.toNat - 48)
  else if 'a' ≤ c ∧ c ≤ 'f' then some (c.toNat - 87)
  else if 'A' ≤ c ∧ c ≤ 'F' then some (c.toNat - 55)
  else none

/-- The UTF-16 unit that four hexadecimal digits spell. -/
def unit? (a b c d : Char) : Option Nat := do
  return (((← hexValue? a) * 16 + (← hexValue? b)) * 16 + (← hexValue? c)) * 16 + (← hexValue? d)

/-- The character of an escape letter. -/
def escaped? : Char → Option Char
  | '"' => some '"'
  | '\\' => some '\\'
  | '/' => some '/'
  | 'b' => some '\x08'
  | 'f' => some '\x0c'
  | 'n' => some '\n'
  | 'r' => some '\r'
  | 't' => some '\t'
  | _ => none

/-- Reads a string after its opening quote. Half of a surrogate pair is no
character, so a string with one is refused. -/
def stringBody : List Char → Option (List Char × List Char)
  | [] => none
  | '"' :: rest => some ([], rest)
  | '\\' :: 'u' :: a :: b :: c :: d :: rest => do
    let unit ← unit? a b c d
    if 0xd800 ≤ unit ∧ unit < 0xdc00 then
      match rest with
      | '\\' :: 'u' :: e :: f :: g :: h :: rest => do
        let second ← unit? e f g h
        if 0xdc00 ≤ second ∧ second < 0xe000 then
          let (chars, rest) ← stringBody rest
          return (Char.ofNat (0x10000 + (unit - 0xd800) * 0x400 + (second - 0xdc00)) :: chars, rest)
        else none
      | _ => none
    else if 0xdc00 ≤ unit ∧ unit < 0xe000 then none
    else
      let (chars, rest) ← stringBody rest
      return (Char.ofNat unit :: chars, rest)
  | '\\' :: c :: rest => do
    let plain ← escaped? c
    let (chars, rest) ← stringBody rest
    return (plain :: chars, rest)
  | c :: rest =>
    if c.toNat < 0x20 ∨ c = '\\' then none
    else do
      let (chars, rest) ← stringBody rest
      return (c :: chars, rest)

/-- Reads the rest of an array, from before one of its items on. `item` reads one
value; each turn consumes a character, so the length of the text is fuel enough. -/
def arrayItems (item : List Char → Option (Json × List Char)) :
    (fuel : Nat) → List Char → Option (List Json × List Char)
  | 0, _ => none
  | fuel + 1, chars => do
    let (first, rest) ← item (skipSpace chars)
    match skipSpace rest with
    | ']' :: rest => return ([first], rest)
    | ',' :: rest => do
      let (items, rest) ← arrayItems item fuel rest
      return (first :: items, rest)
    | _ => none

/-- Reads the rest of an object, from before one of its members on. -/
def objectMembers (item : List Char → Option (Json × List Char)) :
    (fuel : Nat) → List Char → Option (List (String × Json) × List Char)
  | 0, _ => none
  | fuel + 1, chars =>
    match skipSpace chars with
    | '"' :: rest => do
      let (key, rest) ← stringBody rest
      match skipSpace rest with
      | ':' :: rest => do
        let (value, rest) ← item (skipSpace rest)
        let member := (String.ofList key, value)
        match skipSpace rest with
        | '\x7d' :: rest => return ([member], rest)
        | ',' :: rest => do
          let (members, rest) ← objectMembers item fuel rest
          return (member :: members, rest)
        | _ => none
      | _ => none
    | _ => none

/-- Reads one value that stands right ahead. An array or object takes one of the
`depth` levels still allowed. -/
def value : (depth : Nat) → List Char → Option (Json × List Char)
  | _, 'n' :: 'u' :: 'l' :: 'l' :: rest => some (.null, rest)
  | _, 't' :: 'r' :: 'u' :: 'e' :: rest => some (.bool true, rest)
  | _, 'f' :: 'a' :: 'l' :: 's' :: 'e' :: rest => some (.bool false, rest)
  | _, '"' :: rest => do
    let (chars, rest) ← stringBody rest
    return (.string (String.ofList chars), rest)
  | depth + 1, '[' :: rest =>
    match skipSpace rest with
    | ']' :: rest => some (.array [], rest)
    | rest => do
      let (items, rest) ← arrayItems (value depth) rest.length rest
      return (.array items, rest)
  | depth + 1, '\x7b' :: rest =>
    match skipSpace rest with
    | '\x7d' :: rest => some (.object [], rest)
    | rest => do
      let (members, rest) ← objectMembers (value depth) rest.length rest
      return (ofMembers members, rest)
  | _, '-' :: rest => do
    let (found, rest) ← JsonNumber.unsigned true rest
    return (.number found, rest)
  | _, rest => do
    let (found, rest) ← JsonNumber.unsigned false rest
    return (.number found, rest)

/-- The value that a text spells, or `none` if it is not JSON. -/
def parse? (text : String) : Option Json := do
  let (result, rest) ← value (maxDepth - 1) (skipSpace text.toList)
  if (skipSpace rest).isEmpty then some result else none

end Json

end OrderPack
