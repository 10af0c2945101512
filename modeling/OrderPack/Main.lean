import OrderPack.Command.System

/-! The program itself, on the system of the process that it runs in. -/
namespace OrderPack.Command

/-- The number of a fault. Some of the system's calls turn its sign. -/
def faultNumber (code : UInt32) : Nat := (min code (-code)).toNat

/-- Sentences for faults that some of the system's calls word otherwise. -/
def faultSentences : List (Nat × String) :=
  [(2, "No such file or directory"), (13, "Permission denied"), (20, "Not a directory"),
    (21, "Is a directory"), (28, "No space left on device"), (36, "File name too long")]

/-- The system's sentence for a fault, with its number. -/
def faultSentence (code : UInt32) (details : String) : String :=
  let number := faultNumber code
  (faultSentences.lookup number).getD details ++ " (os error " ++ toString number ++ ")"

/-- What is told of a fault. -/
def faultText : IO.Error → String
  | .noFileOrDirectory _ code details | .interrupted _ code details
  | .alreadyExists _ code details | .invalidArgument _ code details
  | .permissionDenied _ code details | .resourceExhausted _ code details
  | .inappropriateType _ code details | .noSuchThing _ code details
  | .otherError code details | .resourceBusy code details | .resourceVanished code details
  | .unsupportedOperation code details | .hardwareFault code details
  | .unsatisfiedConstraints code details | .illegalOperation code details
  | .protocolError code details | .timeExpired code details => faultSentence code details
  | error => toString error

/-- Runs an action of the system, keeping its fault. -/
def attempt {α : Type} (action : IO α) : IO (Except String α) := do
  try
    return .ok (← action)
  catch error =>
    return .error (faultText error)

/-- The system of the process. -/
def processSystem : System IO where
  readFile path := attempt do return (← IO.FS.readBinFile path).toList
  readInput := attempt do return (← (← IO.getStdin).readBinToEnd).toList
  writeFile path content := attempt do
    let handle ← IO.FS.Handle.mk path .write
    handle.write content.toByteArray
    -- A fault may show only once all that is buffered has been passed on.
    handle.flush

/-- The setting of the process. -/
def processSetting : IO Setting := do
  let input ← (← IO.getStdin).isTty
  let output ← (← IO.getStdout).isTty
  let error ← (← IO.getStderr).isTty
  return .plain fun
    | .input => input
    | .output => output
    | .error => error

/-- Prints what a run leaves. -/
def Outcome.print (outcome : Outcome) : IO Unit := do
  IO.print outcome.stdout
  IO.eprint outcome.stderr

end OrderPack.Command

def main (words : List String) : IO UInt32 := do
  let setting ← OrderPack.Command.processSetting
  let outcome ← OrderPack.Command.processSystem.execute setting words
  (outcome.logged setting).print
  return UInt32.ofNat outcome.exitCode
