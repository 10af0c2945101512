import OrderPack.Command.System
import OrderPack.Proofs.Command.Answers

/-! Runs on a system that remembers what has been done to it. A run reads what it needs first, and
writes a file last; in between it is a function of what has been read. So whatever fails before the
file is written has changed nothing by it, and prints a report and no result. -/
namespace OrderPack

namespace Command

/-- A run that fails. It prints no result but a report, from which the exit code can be told. Where
no person reads it, the report reads back. -/
structure Reports (setting : Setting) (report : Report) (outcome : Outcome) : Prop where
  exitCode : outcome.exitCode = report.kind.exitCode
  silent : outcome.stdout = ""
  told : outcome.stderr = setting.reportText report
  read : setting.isTerminal .error = false →
    ∃ members, Json.parse? outcome.stderr = some (.object [("error", .object members)]) ∧
      ("kind", .string report.kind.name) ∈ members

namespace System

variable {σ : Type} {system : System (StateM σ)} {setting : Setting}

section Serving

variable {request : Request} {content : Content} {state ready : σ}

end Serving

/-- How a run can fail, and how the system is then: as it was before the words were understood,
as it was once all that is needed had been read, or, if the file could not be written, as the
attempt to write it has left it. -/
inductive Failed (system : System (StateM σ)) (setting : Setting) (words : List String) (state : σ)
    (outcome : Outcome) : σ → Prop where
  | idle (asked : Line.parse words = .error .nothing)
      (exitCode : outcome.exitCode = FailureKind.usage.exitCode) (silent : outcome.stdout = "")
      (told : outcome.stderr = setting.help Line.root false) :
      Failed system setting words state outcome state
  | refused (asked : Line.parse words = .error (.refused error))
      (reports : Reports setting error.report outcome) :
      Failed system setting words state outcome state
  | unanswered (asked : Line.parse words = .ok request)
      (fetched : (system.fetch (request.invocation.need setting)).run state = (content, ready))
      (failed : request.invocation.answer setting content = .error report)
      (reports : Reports setting report outcome) :
      Failed system setting words state outcome ready
  | unwritten (asked : Line.parse words = .ok request)
      (fetched : (system.fetch (request.invocation.need setting)).run state = (content, ready))
      (answered : request.invocation.answer setting content = .ok answer)
      (wanted : answer.output = some (path, record))
      (failed : (system.writeFile path record).run ready = (.error fault, after))
      (reports : Reports setting (unwritable path fault) outcome) :
      Failed system setting words state outcome after

theorem Failed.silent {words : List String} {state after : σ} {outcome : Outcome}
    (failed : Failed system setting words state outcome after) : outcome.stdout = "" := by
  cases failed with
  | idle _ _ silent _ => exact silent
  | refused _ reports => exact reports.silent
  | unanswered _ _ _ reports => exact reports.silent
  | unwritten _ _ _ _ _ reports => exact reports.silent

/-- What is known of a system that keeps files. `held` says what the plain files are that can be
read. To read changes none of them and gives all of their content, and once a file has been
written, it holds nothing else if it is a plain file. -/
structure KeepsFiles (system : System (StateM σ)) (held : σ → String → Option (List UInt8)) :
    Prop where
  read : ∀ path content state, held state path = some content →
    ((system.readFile path).run state).1 = .ok content
  keptByFile : ∀ path state, held ((system.readFile path).run state).2 = held state
  keptByInput : ∀ state, held (system.readInput.run state).2 = held state
  written : ∀ path content state after,
    (system.writeFile path content).run state = (.ok (), after) →
      ∀ found, held after path = some found → found = content

variable {held : σ → String → Option (List UInt8)}

theorem KeepsFiles.fetch (keeps : system.KeepsFiles held) {need : Need} {content : Content}
    {state ready : σ} (fetched : (system.fetch need).run state = (content, ready)) :
    held ready = held state := by
  have same : ((system.fetch need).run state).2 = ready := congrArg Prod.snd fetched
  rw [← same]
  cases need with
  | nothing => rfl
  | file path => exact keeps.keptByFile path state
  | standardInput => exact keeps.keptByInput state

end System

end Command

end OrderPack
