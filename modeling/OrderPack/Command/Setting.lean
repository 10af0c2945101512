import OrderPack.Command.Help
import OrderPack.Command.Log
import OrderPack.Json.Printer

/-! The setting of a run: which of its streams lead to a terminal, and the texts that
are made for it by other libraries. At a terminal there is a person to read what is
printed; elsewhere there is a program, which reads one line of JSON. -/
namespace OrderPack

/-- A report as JSON. What it does not know is left out. -/
def Report.toJson (report : Report) : Json :=
  let optional {α : Type} (name : String) (value : Option α) (json : α → Json) :
      List (String × Json) := (value.map fun content => (name, json content)).toList
  let causes := if report.causes.isEmpty then none else some report.causes
  .ofMembers [("error", .ofMembers
    ([("kind", .string report.kind.name), ("message", .string report.messageOrSummary)]
      ++ optional "hint" report.hint .string
      ++ optional "offset" report.offset .ofNat
      ++ optional "field" report.field .ofNat
      ++ optional "causes" causes fun texts => .array (texts.map .string)))]

/-- A report for a person to read, line by line. Only the nearest cause is told. -/
def Report.lines (report : Report) : List String :=
  let optional {α : Type} (label : String) (value : Option α) (text : α → String) :
      List String := (value.map fun content => label ++ ": " ++ text content).toList
  ["error: " ++ report.messageOrSummary]
    ++ optional "hint" report.hint id
    ++ optional "field" report.field toString
    ++ optional "offset" report.offset toString
    ++ optional "caused by" report.causes.head? id

namespace Command

/-- A stream of a run. -/
inductive Stream where
  | input
  | output
  | error
  deriving DecidableEq

/-- What a run finds around it, apart from its words and the system. -/
structure Setting where
  isTerminal : Stream → Bool
  /-- The help on a command, in short or at length. -/
  help : Grammar → (long : Bool) → String
  /-- The script by which a shell completes commands. -/
  script : Shell → String
  /-- What is wrong with a text that is not JSON. -/
  syntaxFault : String → String
  /-- The line by which an event is logged, if it is logged when this is the finest
  level asked for. -/
  logLine : (finest : Option LogLevel) → LogEvent → Option String

/-- A setting in which nothing is made by other libraries. -/
def Setting.plain (isTerminal : Stream → Bool) : Setting where
  isTerminal := isTerminal
  help := Grammar.plainHelp
  script := plainScript
  syntaxFault := fun _ => "not a JSON text"
  logLine := fun finest event => if event.level.isWithin finest then some event.line else none

/-- A JSON value on a line of its own. -/
def jsonLine (value : Json) : String := value.render ++ "\n"

/-- What is printed as a result: a JSON value, or a script. -/
inductive Document where
  | json (value : Json)
  | script (shell : Shell)

namespace Setting

/-- The text of a result. -/
def documentText (setting : Setting) : Document → String
  | .json value =>
    if setting.isTerminal .output then value.pretty ++ "\n" else jsonLine value
  | .script shell => setting.script shell

/-- What is logged of events. -/
def logText (setting : Setting) (finest : Option LogLevel) (events : List LogEvent) : String :=
  String.join (events.filterMap (setting.logLine finest))

/-- The text of a report. -/
def reportText (setting : Setting) (report : Report) : String :=
  if setting.isTerminal .error then Line.inLines report.lines ++ "\n"
  else jsonLine report.toJson

end Setting

end Command

end OrderPack
