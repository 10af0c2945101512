import OrderPack.Arguments
import OrderPack.Command.Log
import OrderPack.Command.Setting
import OrderPack.Json.Parser

/-! What the program answers. An invocation first says what it needs to read, then
turns what was read into an answer: a result to print, and perhaps a file to write
before that. All of this is a function of the words and of what was read. -/
namespace OrderPack

/-- The word for a kind of value where the fields of a descriptor are listed. -/
def ValueKind.word : ValueKind → String
  | .int64 => "int"
  | .uint64 => "uint"
  | .text => "text"
  | .bytes => "bytes"

/-- A field as JSON. -/
def Field.toJson (field : Field) : Json :=
  .ofMembers
    [("tag", .string (String.singleton field.tag.letter)),
      ("size", .ofNat field.size),
      ("has_size", .bool field.sized),
      ("kind", .string ((field.tag.kind?.map ValueKind.word).getD "padding"))]

namespace Command

/-- What must be read before an invocation can be answered. -/
inductive Need where
  | nothing
  | file (path : String)
  | standardInput
  deriving DecidableEq

/-- What was read, or the system's sentence on why it could not be read. -/
abbrev Content : Type := Except String (List UInt8)

/-- A result to print, and a file to write before that. -/
structure Answer where
  document : Document
  output : Option (String × List UInt8) := none

/-- The report on a file that cannot be read. -/
def unreadable (path cause : String) : Report :=
  { kind := .io, message := some ("failed to read " ++ path), causes := [cause] }

/-- The report on a file that cannot be written. -/
def unwritable (path cause : String) : Report :=
  { kind := .io, message := some ("failed to write " ++ path), causes := [cause] }

/-- The report on a file that holds no text. -/
def notText (path cause : String) : Report :=
  { kind := .usage, message := some (path ++ " is not UTF-8 text"), causes := [cause] }

/-- The report on a text that is not JSON. -/
def notJson (cause : String) : Report :=
  { kind := .usage
    message := some "invalid JSON arguments"
    hint := some "Arguments must be a JSON array, for example '[1, \"a\"]'."
    causes := [cause] }

/-- The report on a record that is given nowhere, with nobody but a person at a
terminal to ask for it. -/
def noRecord : Report :=
  { kind := .usage
    message := some "unpack requires HEX, --input, or hex on stdin"
    hint := some "Example: wtpack unpack Q 81" }

/-- The JSON value of a text given as arguments. -/
def parseArguments (setting : Setting) (text : String) : Except Report Json :=
  match Json.parse? text with
  | some value => .ok value
  | none => .error (notJson (setting.syntaxFault text))

/-- The JSON arguments from their source, `content` being what was read from it. -/
def loadArguments (setting : Setting) (source : ArgumentSource) (content : Content) :
    Except Report Json :=
  match source with
  | .inline text => parseArguments setting text
  | .absent => .ok (.array [])
  | .file path =>
    match content with
    | .error fault => .error (unreadable path fault)
    | .ok bytes =>
      match Text.ofBytes bytes with
      | .ok text => parseArguments setting text
      | .error fault => .error (notText path fault.message)

/-- The record from its source, `content` being what was read from it. -/
def loadRecord (setting : Setting) (source : RecordSource) (content : Content) :
    Except Report (List UInt8) :=
  match source with
  | .inline hex => (Text.decodeHex hex).mapError Text.HexError.report
  | .file path => content.mapError (unreadable path)
  | .standardInput =>
    if setting.isTerminal .input then .error noRecord
    else
      match content with
      | .error fault => .error (unreadable "stdin" fault)
      | .ok bytes =>
        match Text.ofBytes bytes with
        | .ok hex => (Text.decodeHex hex).mapError Text.HexError.report
        | .error _ => .error (unreadable "stdin" "stream did not contain valid UTF-8")

/-- Packs JSON arguments. The result tells the record's bytes and their number. -/
def packAnswer (descriptor : String) (arguments : Json) (output : Option String) :
    Except Report Answer := do
  let values ← (Arguments.values descriptor arguments).mapError Arguments.Error.report
  let bytes ← (Record.pack descriptor values).mapError Record.PackError.report
  let receipt := Json.ofMembers
    [("format", .string descriptor), ("len", .ofNat bytes.length),
      ("hex", .string (Text.encodeHex bytes))]
  return ⟨.json receipt, output.map fun path => (path, bytes)⟩

/-- Unpacks a record. -/
def unpackAnswer (descriptor : String) (buffer : List UInt8) : Except Report Answer := do
  let values ← (Record.unpack descriptor buffer).mapError Record.UnpackError.report
  return { document := .json (.ofMembers
    [("format", .string descriptor), ("values", .array (values.map Value.toJson))]) }

/-- The fields of a descriptor as JSON. -/
def fieldsJson (descriptor : String) : Except Report Json := do
  let layout ← (Layout.ofText descriptor).mapError Descriptor.Error.report
  let fields ← layout.fields.mapError Descriptor.Error.report
  return .array (fields.map Field.toJson)

/-- Lists the fields of a descriptor. -/
def inspectAnswer (descriptor : String) : Except Report Answer := do
  let fields ← fieldsJson descriptor
  return { document := .json (.ofMembers
    [("format", .string descriptor), ("fields", fields)]) }

/-- Lists the fields of both columns of a table. -/
def inspectTableAnswer (config : String) : Except Report Answer := do
  let table ← (Table.ofConfig config).mapError Table.Error.report
  let keyFields ← fieldsJson table.keyFormat
  let valueFields ← fieldsJson table.valueFormat
  return { document := .json (.ofMembers
    [("key_format", .string table.keyFormat), ("value_format", .string table.valueFormat),
      ("record_keyed", .bool table.isRecordKeyed), ("key_fields", keyFields),
      ("value_fields", valueFields)]) }

namespace Invocation

/-- What must be read first. A terminal is not read from. -/
def need (setting : Setting) : Invocation → Need
  | .pack _ (.file path) _ | .unpack _ (.file path) => .file path
  | .unpack _ .standardInput =>
    if setting.isTerminal .input then .nothing else .standardInput
  | _ => .nothing

/-- The answer, `content` being what was read if something was needed. -/
def answer (setting : Setting) (invocation : Invocation) (content : Content) :
    Except Report Answer :=
  match invocation with
  | .pack descriptor source output => do
    packAnswer descriptor (← loadArguments setting source content) output
  | .unpack descriptor source => do
    unpackAnswer descriptor (← loadRecord setting source content)
  | .inspect descriptor => inspectAnswer descriptor
  | .inspectTable config => inspectTableAnswer config
  | .version =>
    .ok { document := .json (.ofMembers
      [("name", .string programName), ("version", .string programVersion)]) }
  | .completion shell => .ok { document := .script shell }

/-- What happens on the way to the answer. It begins once all that is needed has
been read and understood. -/
def events (setting : Setting) (invocation : Invocation) (content : Content) :
    List LogEvent :=
  match invocation with
  | .pack descriptor source _ =>
    match loadArguments setting source content with
    | .error _ => []
    | .ok arguments =>
      match Arguments.values descriptor arguments with
      | .error _ => []
      | .ok values => packEvents descriptor values
  | .unpack descriptor source =>
    match loadRecord setting source content with
    | .error _ => []
    | .ok buffer => unpackEvents descriptor buffer
  | .inspectTable config => tableEvents config
  | .inspect _ | .version | .completion _ => []

end Invocation

end Command

end OrderPack
