import OrderPack.Report
import OrderPack.Text.Blank
import OrderPack.Text.Utf8

/-! Bytes as pairs of hexadecimal digits. Writing uses lower case and nothing
between the pairs; reading takes either case, white space anywhere, blank
margins and one leading `0x`. -/
namespace OrderPack.Text

/-- The digit of a number below sixteen. -/
def hexDigit (n : Nat) : Char := Nat.digitChar n

/-- The value of a digit given as an ASCII byte. -/
def hexDigitValue? (byte : UInt8) : Option Nat :=
  let n := byte.toNat
  if 48 ≤ n ∧ n ≤ 57 then some (n - 48)
  else if 97 ≤ n ∧ n ≤ 102 then some (n - 87)
  else if 65 ≤ n ∧ n ≤ 70 then some (n - 55)
  else none

/-- The two digits of a byte, the high half first. -/
def hexPair (byte : UInt8) : List Char :=
  [hexDigit (byte.toNat / 16), hexDigit (byte.toNat % 16)]

/-- The two digits of a byte as a text. -/
def hexByte (byte : UInt8) : String := String.ofList (hexPair byte)

/-- The digits of a row of bytes. -/
def encodeHex (bytes : List UInt8) : String := String.ofList (bytes.flatMap hexPair)

/-- Why a text is not hexadecimal. The offset counts digits. -/
inductive HexError where
  | oddLength
  | notDigit (offset : Nat)
  deriving DecidableEq

/-- Such text comes from the user, so a fault in it is one of usage. -/
def HexError.report : HexError → Report
  | .oddLength => { kind := .usage, message := some "hex input has an odd number of digits" }
  | .notDigit offset =>
    { kind := .usage
      message := some "hex input contains a non-hex digit"
      offset := some offset }

/-- Reads pairs of digits. The offset is that of the next pair, at which a
fault in either of its digits is reported. -/
def hexPairs (offset : Nat) : List UInt8 → Except HexError (List UInt8)
  | [] => .ok []
  | [_] => .error .oddLength
  | high :: low :: rest =>
    match hexDigitValue? high, hexDigitValue? low with
    | some high, some low => do
      let bytes ← hexPairs (offset + 2) rest
      .ok (UInt8.ofNat (high * 16 + low) :: bytes)
    | _, _ => .error (.notDigit offset)

/-- The white space that may stand between digits: space, tab, line feed, form
feed and carriage return. -/
def isHexSpace (byte : UInt8) : Bool :=
  byte == 32 || byte == 9 || byte == 10 || byte == 12 || byte == 13

/-- The text without the mark `0x` at its front, if it has one. -/
def dropHexMark : List Char → List Char
  | '0' :: 'x' :: rest => rest
  | chars => chars

/-- The digits of a hexadecimal text, as bytes, so that a character beyond
ASCII counts as several and none of them is a digit. -/
def hexDigits (text : String) : List UInt8 :=
  (utf8 (dropHexMark (trim text.toList))).filter (!isHexSpace ·)

/-- Reads a hexadecimal text. An odd number of digits is reported before any
digit is looked at. -/
def decodeHex (text : String) : Except HexError (List UInt8) :=
  let digits := hexDigits text
  if digits.length % 2 = 1 then .error .oddLength else hexPairs 0 digits

end OrderPack.Text
