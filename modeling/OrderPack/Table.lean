import OrderPack.Record.Pack
import OrderPack.Record.Unpack
import OrderPack.Text.Blank

/-! The two descriptors of a table, one for its keys and one for the values
stored under them, and how they are found in the text by which a table is
created. That text is a list of entries `name=value` between commas; entries of
other names are passed over, along with whatever they hold in brackets or
quotes. -/
namespace OrderPack

namespace Table

/-- The two columns of a table. -/
inductive Column where
  | key
  | value
  deriving DecidableEq

/-- The name of the entry that holds a column's descriptor. -/
def Column.name : Column → String
  | .key => "key_format"
  | .value => "value_format"

/-- Why a text describes no table. -/
inductive Error where
  /-- A bracket closes what nothing opened. The offset counts bytes. -/
  | unbalanced (bracket : Char) (offset : Nat)
  /-- The text, of this many bytes, ends within brackets or quotes. -/
  | unterminated (length : Nat)
  /-- The descriptor of a column is malformed. -/
  | badFormat (column : Column) (format : String) (cause : Descriptor.Error)
  deriving DecidableEq

/-- A malformed descriptor is reported with the fault in it as the cause. -/
def Error.report : Error → Report
  | .unbalanced bracket offset =>
    { kind := .invalidFormat
      message := some ("unbalanced '" ++ String.singleton bracket ++ "' in table config")
      offset := some offset }
  | .unterminated length =>
    { kind := .invalidFormat
      message := some "unterminated group or quote in table config"
      offset := some length }
  | .badFormat column format cause =>
    { kind := .invalidFormat
      message := some ("invalid " ++ column.name ++ " '" ++ format ++ "'")
      : Report }.causedBy cause.report

/-- What surrounds a character: how many brackets are open, and whether a quote
is. Brackets of both kinds count alike, and inside quotes they do not count. -/
structure Nesting where
  depth : Nat
  quoted : Bool
  deriving DecidableEq

namespace Nesting

/-- Outside of all brackets and quotes. -/
def outside : Nesting := ⟨0, false⟩

/-- What surrounds the character after this one, or `none` if this one closes a
bracket and none is open. -/
def after? (nesting : Nesting) (c : Char) : Option Nesting :=
  if c = '"' then some { nesting with quoted := !nesting.quoted }
  else if nesting.quoted then some nesting
  else if c = '(' ∨ c = '[' then some { nesting with depth := nesting.depth + 1 }
  else if c = ')' ∨ c = ']' then
    if nesting.depth = 0 then none else some { nesting with depth := nesting.depth - 1 }
  else some nesting

end Nesting

/-- Checks that brackets and quotes are closed, in a text of which `offset`
bytes have passed. -/
def checkNesting (nesting : Nesting) (offset : Nat) : List Char → Except Error Unit
  | [] => if nesting = .outside then .ok () else .error (.unterminated offset)
  | c :: rest =>
    match nesting.after? c with
    | some nesting => checkNesting nesting (offset + c.utf8Size) rest
    | none => .error (.unbalanced c offset)

/-- The pieces of a text between its commas, of which only those outside of
brackets and quotes count. The first piece stands apart, as there always is one. -/
def pieces (nesting : Nesting) : List Char → List Char × List (List Char)
  | [] => ([], [])
  | c :: rest =>
    let (first, others) := pieces ((nesting.after? c).getD nesting) rest
    if c = ',' ∧ nesting = .outside then ([], first :: others) else (c :: first, others)

/-- The name and value that a piece states. A name alone states that it is true;
a blank piece states nothing. -/
def entry? (piece : List Char) : Option (String × String) :=
  let piece := Text.trim piece
  if piece.isEmpty then none else
  let separates (c : Char) : Bool := c == '=' || c == ':'
  match piece.dropWhile (!separates ·) with
  | [] => some (String.ofList piece, "true")
  | _ :: value =>
    let name := Text.trim (piece.takeWhile (!separates ·))
    some (String.ofList name, String.ofList (Text.strip (· == '"') (Text.trim value)))

/-- The entries of a text, in order. -/
def entries (config : String) : List (String × String) :=
  let (first, others) := pieces .outside config.toList
  (first :: others).filterMap entry?

/-- The value of the last entry for a column, or the default descriptor. -/
def columnFormat (entries : List (String × String)) (column : Column) : String :=
  match entries.reverse.find? (·.1 == column.name) with
  | some (_, format) => format
  | none => Layout.defaultText

/-- A column's descriptor, if it is well formed throughout. -/
def checkFormat (column : Column) (format : String) : Except Error String :=
  let format := if format.isEmpty then Layout.defaultText else format
  match Layout.ofText format with
  | .error cause => .error (.badFormat column format cause)
  | .ok layout =>
    match layout.fault? with
    | some cause => .error (.badFormat column format cause)
    | none => .ok format

end Table

/-- The descriptors of a table. -/
structure Table where
  keyFormat : String
  valueFormat : String
  deriving DecidableEq

namespace Table

/-- Raw bytes under raw bytes. -/
def default : Table := ⟨Layout.defaultText, Layout.defaultText⟩

/-- The table of two descriptors. The key's is looked at first. -/
def ofFormats (keyFormat valueFormat : String) : Except Error Table := do
  let keyFormat ← checkFormat .key keyFormat
  let valueFormat ← checkFormat .value valueFormat
  return ⟨keyFormat, valueFormat⟩

/-- The table that a text describes. -/
def ofConfig (config : String) : Except Error Table := do
  checkNesting .outside 0 config.toList
  let entries := entries config
  ofFormats (columnFormat entries .key) (columnFormat entries .value)

/-- Such a table is stored by columns, and its keys are record numbers. -/
def isRecordKeyed (table : Table) : Bool := table.keyFormat == "r"

/-- Packs a key of this table. -/
def packKey (table : Table) (key : List Value) : Except Record.PackError (List UInt8) :=
  Record.pack table.keyFormat key

/-- Packs what is stored under a key of this table. -/
def packValue (table : Table) (value : List Value) : Except Record.PackError (List UInt8) :=
  Record.pack table.valueFormat value

/-- Reads a key of this table. -/
def unpackKey (table : Table) (buffer : List UInt8) :
    Except Record.UnpackError (List Value) :=
  Record.unpack table.keyFormat buffer

/-- Reads what is stored under a key of this table. -/
def unpackValue (table : Table) (buffer : List UInt8) :
    Except Record.UnpackError (List Value) :=
  Record.unpack table.valueFormat buffer

end Table

end OrderPack
