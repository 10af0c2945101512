import OrderPack.Command.Answer

/-! A run of the program on a system that reads and writes for it. The system is a
parameter: the program asks it for what an invocation needs, and for the file of an
answer to be written, and nothing else. Nothing is printed as a result unless all of
this has succeeded. -/
namespace OrderPack.Command

/-- What the program asks of the system that it runs on. -/
structure System (m : Type → Type) where
  /-- The whole content of a file. -/
  readFile : (path : String) → m Content
  /-- All that comes from the standard input. -/
  readInput : m Content
  /-- Gives a file this content, whether or not it was there. A fault is told by the
  system's sentence for it. -/
  writeFile : (path : String) → (content : List UInt8) → m (Except String Unit)

/-- What a run of the program leaves: its exit code, what it has printed, and the
events on its way with the finest level of them that was asked for. -/
structure Outcome where
  exitCode : Nat
  stdout : String
  stderr : String
  level : Option LogLevel := none
  events : List LogEvent := []
  deriving DecidableEq

namespace Outcome

/-- A run that prints a result. -/
def success (text : String) : Outcome := { exitCode := 0, stdout := text, stderr := "" }

/-- A run that fails. -/
def failure (setting : Setting) (report : Report) : Outcome :=
  { exitCode := report.kind.exitCode, stdout := "", stderr := setting.reportText report }

/-- A run that ends with the words themselves. Help that was asked for is a result;
help for want of any words is not. -/
def ofStop (setting : Setting) : Stop → Outcome
  | .help path long => success (setting.help (Line.ofPath path) long)
  | .version => success versionLine
  | .nothing =>
    { exitCode := FailureKind.usage.exitCode, stdout := ""
      stderr := setting.help Line.root false }
  | .refused error => failure setting error.report

/-- A run that comes to this end after these events. -/
def after (level : Option LogLevel) (events : List LogEvent) (outcome : Outcome) : Outcome :=
  { outcome with level, events := events ++ outcome.events }

/-- A run with all that is logged in front of what else is printed as an error. -/
def logged (setting : Setting) (outcome : Outcome) : Outcome :=
  { outcome with stderr := setting.logText outcome.level outcome.events ++ outcome.stderr }

end Outcome

namespace System

variable {m : Type → Type} [Monad m] (system : System m) (setting : Setting)

/-- Reads what is needed. Where nothing is, nothing comes of it. -/
def fetch : Need → m Content
  | .nothing => return .ok []
  | .file path => system.readFile path
  | .standardInput => system.readInput

/-- Writes the file of an answer, then prints the result. -/
def deliver (answer : Answer) : m Outcome := do
  let success := Outcome.success (setting.documentText answer.document)
  match answer.output with
  | none => return success
  | some (path, content) =>
    match ← system.writeFile path content with
    | .ok () => return { success with events := [.wrote path content.length] }
    | .error fault => return .failure setting (unwritable path fault)

/-- Answers a request. -/
def serve (request : Request) : m Outcome := do
  let content ← system.fetch (request.invocation.need setting)
  let outcome ←
    match request.invocation.answer setting content with
    | .error report => pure (.failure setting report)
    | .ok answer => system.deliver setting answer
  return outcome.after request.logLevel (request.invocation.events setting content)

/-- A run of the program on the words of its command line. -/
def execute (words : List String) : m Outcome :=
  match Line.parse words with
  | .error stop => return .ofStop setting stop
  | .ok request => system.serve setting request

end System

end OrderPack.Command
