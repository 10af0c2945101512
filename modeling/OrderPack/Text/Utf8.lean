/-! Text as bytes. Core decides what valid UTF-8 is; this module adds the place
and length of the first fault of an invalid row of bytes, so that a reader of
the error can find it. -/
namespace OrderPack.Text

/-- The UTF-8 bytes of a row of characters. -/
def utf8 (chars : List Char) : List UInt8 := chars.flatMap String.utf8EncodeChar

/-- The UTF-8 bytes of a text. -/
def bytes (text : String) : List UInt8 := utf8 text.toList

/-- The first fault of a row of bytes. The index is where the faulty sequence
begins: all before it is valid text. -/
inductive Utf8Fault where
  /-- The next `length` bytes begin a character, and what follows cannot continue it. -/
  | invalid (length index : Nat)
  /-- The bytes end inside a character. -/
  | incomplete (index : Nat)
  deriving DecidableEq

/-- The sentence for a fault. -/
def Utf8Fault.message : Utf8Fault → String
  | .invalid length index =>
    "invalid utf-8 sequence of " ++ toString length ++ " bytes from index " ++ toString index
  | .incomplete index => "incomplete utf-8 byte sequence from index " ++ toString index

/-- What a first byte asks of the bytes after it. -/
structure Continuation where
  /-- How many bytes are still owed. -/
  owed : Nat
  /-- The least next byte that continues the character. -/
  low : UInt8
  /-- The greatest one. -/
  high : UInt8

/-- The demand of a first byte, or `none` where no character starts with it. The
narrowed ranges keep out overlong forms, surrogates and points past the last. -/
def Continuation.ofLead? (byte : UInt8) : Option Continuation :=
  if byte < 0x80 then some ⟨0, 0, 0⟩
  else if byte < 0xc2 then none
  else if byte < 0xe0 then some ⟨1, 0x80, 0xbf⟩
  else if byte = 0xe0 then some ⟨2, 0xa0, 0xbf⟩
  else if byte = 0xed then some ⟨2, 0x80, 0x9f⟩
  else if byte < 0xf0 then some ⟨2, 0x80, 0xbf⟩
  else if byte = 0xf0 then some ⟨3, 0x90, 0xbf⟩
  else if byte < 0xf4 then some ⟨3, 0x80, 0xbf⟩
  else if byte = 0xf4 then some ⟨3, 0x80, 0x8f⟩
  else none

/-- Walks the bytes with the demand still open. `index` is where the character
under way began and `seen` how many of its bytes have passed. -/
def firstFault? (index seen : Nat) (demand : Continuation) : List UInt8 → Option Utf8Fault
  | [] => if demand.owed = 0 then none else some (.incomplete index)
  | byte :: rest =>
    match demand.owed with
    | 0 =>
      match Continuation.ofLead? byte with
      | none => some (.invalid 1 (index + seen))
      | some demand => firstFault? (index + seen) 1 demand rest
    | owed + 1 =>
      if demand.low ≤ byte ∧ byte ≤ demand.high then
        firstFault? index (seen + 1) ⟨owed, 0x80, 0xbf⟩ rest
      else
        some (.invalid seen index)

/-- The text that the bytes spell, or their first fault. The fallback answers
for bytes in which the walk finds no fault although they spell no text; there
are none. -/
def ofBytes (bytes : List UInt8) : Except Utf8Fault String :=
  match String.fromUTF8? bytes.toByteArray with
  | some text => .ok text
  | none => .error ((firstFault? 0 0 ⟨0, 0, 0⟩ bytes).getD (.incomplete bytes.length))

/-- The longest run of whole leading characters whose bytes fit into `width`. -/
def takeFitting (width : Nat) : List Char → List Char
  | [] => []
  | c :: rest =>
    let size := (String.utf8EncodeChar c).length
    if size ≤ width then c :: takeFitting (width - size) rest else []

end OrderPack.Text
