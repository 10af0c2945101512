import OrderPack.Command.Invocation
import OrderPack.Record.Pack
import OrderPack.Record.Unpack
import OrderPack.Table
import OrderPack.Text.Quoted

/-! What is logged of the work on records and tables. The events of a piece of work
follow its own steps, field by field, and end where it ends; they take no part in
its result. -/
namespace OrderPack.Command

/-- Something that happens in the work. Fields are counted from zero, padding
included. -/
inductive LogEvent where
  /-- Values for which there is no field are ignored. -/
  | ignored (values : Nat)
  /-- All values have been found to suit, and the length of the record is known. -/
  | sized (descriptor : String) (total values : Nat)
  /-- A field is about to be written at this offset. -/
  | packing (field : Nat) (tag : Tag) (offset : Nat)
  /-- A field that began at this offset has been read. -/
  | decoded (field : Nat) (tag : Tag) (offset : Nat)
  /-- The value of a field could not be read. -/
  | undecoded (cause : Record.UnpackError)
  /-- Bytes after the last field are ignored. -/
  | trailing (bytes : Nat)
  /-- The descriptors of a table have been found. -/
  | parsedTable (table : Table)
  /-- A record has been written to a file. -/
  | wrote (path : String) (length : Nat)
  deriving DecidableEq

namespace LogEvent

/-- Events that come with every record are of the finer level. -/
def level : LogEvent → LogLevel
  | .sized .. | .packing .. | .decoded .. | .trailing _ => .trace
  | .ignored _ | .undecoded _ | .parsedTable _ | .wrote .. => .debug

/-- One detail of an event. -/
def detail (name content : String) : String := " " ++ name ++ "=" ++ content

/-- The details of an event at a field. -/
def atField (field : Nat) (tag : Tag) (offset : Nat) : String :=
  detail "field" (toString field) ++ detail "tag" (String.singleton tag.letter)
    ++ detail "offset" (toString offset)

/-- What happens, and its details. -/
def message : LogEvent → String
  | .ignored values =>
    "descriptor exhausted before values; ignoring the rest" ++ detail "ignored" (toString values)
  | .sized descriptor total values =>
    "sized packed buffer" ++ detail "format" (Text.quote descriptor)
      ++ detail "total" (toString total) ++ detail "values" (toString values)
  | .packing field tag offset => "packing field" ++ atField field tag offset
  | .decoded field tag offset => "decoded field" ++ atField field tag offset
  | .undecoded cause => "unpack failed" ++ detail "error" cause.report.display
  | .trailing bytes => "ignoring bytes after last field" ++ detail "trailing" (toString bytes)
  | .parsedTable table =>
    "parsed table config" ++ detail "key_format" table.keyFormat
      ++ detail "value_format" table.valueFormat
  | .wrote path length =>
    "wrote packed bytes" ++ detail "path" path ++ detail "len" (toString length)

/-- A plain line for an event, without the time at which it has happened. -/
def line (event : LogEvent) : String := event.level.name ++ " " ++ event.message ++ "\n"

end LogEvent

/-- A walk over fields that is logged: its state, and the events so far, of which
the latest comes first. -/
structure Logged (σ : Type) where
  state : σ
  events : List LogEvent

namespace Logged

/-- Sizes one field, which will be written where the fields before it end. -/
def size (given : Nat) (walk : Logged Record.Sizing) (field : Field) :
    Except Record.PackError (Logged Record.Sizing) :=
  (walk.state.step given field).map fun sizing =>
    ⟨sizing, .packing walk.state.field field.tag walk.state.total :: walk.events⟩

/-- Reads one field. Padding is passed over in silence. A failure leaves the events,
the last of which tells of it if a value was asked for. -/
def read (walk : Logged Record.Reading) (field : Field) :
    Except (List LogEvent) (Logged Record.Reading) :=
  match walk.state.step field with
  | .ok reading =>
    let decoded : LogEvent := .decoded walk.state.field field.tag walk.state.reader.offset
    .ok ⟨reading, if field.holdsValue then decoded :: walk.events else walk.events⟩
  | .error cause =>
    .error (if field.holdsValue then .undecoded cause :: walk.events else walk.events)

end Logged

/-- The events of packing. Nothing is told before all fields have been sized, and
nothing of the writing where the record would be empty. -/
def packEvents (descriptor : String) (values : List Value) : List LogEvent :=
  let sized (layout : Layout) : Except Record.PackError (Logged Record.Sizing) :=
    layout.foldFields (Logged.size values.length) (fun _ error => .descriptor error)
      ⟨⟨values, 0, 0⟩, []⟩
  match ((Layout.ofText descriptor).mapError Record.PackError.descriptor).bind sized with
  | .error _ => []
  | .ok ⟨sizing, packing⟩ =>
    let ignored := sizing.values.length
    (if ignored = 0 then [] else [.ignored ignored])
      ++ if sizing.total = 0 then []
        else .sized descriptor sizing.total values.length :: packing.reverse

/-- The events of unpacking. A fault of the descriptor ends them without a word. -/
def unpackEvents (descriptor : String) (buffer : List UInt8) : List LogEvent :=
  match Record.openRecord descriptor buffer with
  | .error _ => []
  | .ok layout =>
    match layout.foldFields Logged.read (fun walk _ => walk.events) ⟨⟨⟨0, buffer⟩, 0, []⟩, []⟩ with
    | .error events => events.reverse
    | .ok ⟨reading, events⟩ =>
      let trailing := reading.reader.rest.length
      events.reverse ++ if trailing = 0 then [] else [.trailing trailing]

/-- The events of finding the descriptors of a table: one, if they are found. -/
def tableEvents (config : String) : List LogEvent :=
  match Table.ofConfig config with
  | .error _ => []
  | .ok table => [.parsedTable table]

end OrderPack.Command
