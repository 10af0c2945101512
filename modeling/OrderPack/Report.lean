/-! What a caller is told when an operation fails. Every part of the library
has causes of its own; each of them turns into a `Report`, so that wording,
exit codes and the chain of causes have one shape for all of them. -/
namespace OrderPack

/-- The class of a failure, which alone decides the exit code. -/
inductive FailureKind where
  | internal
  | usage
  | invalidFormat
  | typeMismatch
  | argumentCountMismatch
  | truncatedInput
  | invalidArgument
  | corrupt
  | io
  deriving DecidableEq

namespace FailureKind

/-- The word for a class in every printed error. -/
def name : FailureKind → String
  | .internal => "Internal"
  | .usage => "Usage"
  | .invalidFormat => "InvalidFormat"
  | .typeMismatch => "TypeMismatch"
  | .argumentCountMismatch => "ArgumentCountMismatch"
  | .truncatedInput => "TruncatedInput"
  | .invalidArgument => "InvalidArgument"
  | .corrupt => "Corrupt"
  | .io => "Io"

/-- Scripts tell failures apart by these numbers; zero is kept for success. -/
def exitCode : FailureKind → Nat
  | .internal => 1
  | .usage => 2
  | .invalidFormat => 3
  | .typeMismatch => 4
  | .argumentCountMismatch => 5
  | .truncatedInput => 6
  | .invalidArgument => 7
  | .corrupt => 8
  | .io => 9

/-- The sentence shown for a failure that carries no message of its own. -/
def summary : FailureKind → String
  | .internal => "internal error"
  | .usage => "usage error"
  | .invalidFormat => "invalid format"
  | .typeMismatch => "argument type does not match format"
  | .argumentCountMismatch => "too few arguments for format"
  | .truncatedInput => "input ended early"
  | .invalidArgument => "invalid argument"
  | .corrupt => "corrupt data"
  | .io => "i/o error"

end FailureKind

/-- A failure with its context. An offset counts bytes of the descriptor or
buffer at fault; a field index counts the fields of the descriptor from zero.
The causes run from the nearest to the root, each in its displayed form. -/
structure Report where
  kind : FailureKind
  message : Option String := none
  hint : Option String := none
  offset : Option Nat := none
  field : Option Nat := none
  causes : List String := []
  deriving DecidableEq

namespace Report

/-- A context part of the one-line form, left out when it is unknown. -/
def context (label : String) : Option Nat → String
  | none => ""
  | some n => " (" ++ label ++ ": " ++ toString n ++ ")"

/-- The one-line form; the field stands before the offset. -/
def display (report : Report) : String :=
  report.kind.name
    ++ (match report.message with | none => "" | some text => ": " ++ text)
    ++ context "field" report.field
    ++ context "offset" report.offset

/-- The message, or the sentence for the class where there is none. -/
def messageOrSummary (report : Report) : String :=
  report.message.getD report.kind.summary

/-- A report with `cause` as the reason behind it: its line, and then whatever
lay behind the cause itself. An earlier reason is replaced. -/
def causedBy (report cause : Report) : Report :=
  { report with causes := cause.display :: cause.causes }

end Report

end OrderPack
