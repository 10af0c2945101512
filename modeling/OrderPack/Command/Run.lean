import OrderPack.Command.Disk
import OrderPack.Command.System

/-! The program among files in memory: one of the systems that it can run on, for trying
it out. -/
namespace OrderPack.Command

/-- All that there is: some files, and what is still to come from the standard input. -/
structure Surroundings where
  disk : Disk
  standardInput : List UInt8
  deriving DecidableEq

/-- Reads and writes the files in memory. The standard input is used up. -/
def Surroundings.system : System (StateM Surroundings) where
  readFile path := fun now =>
    ((now.disk.read now.standardInput path).mapError DiskFault.message, now)
  readInput := fun now => (.ok now.standardInput, { now with standardInput := [] })
  writeFile path content := fun now =>
    match now.disk.write path content with
    | .ok disk => (.ok (), { now with disk })
    | .error fault => (.error fault.message, now)

/-- A run in which no stream is a terminal: what it leaves behind, with all that is logged
in front of what is printed as an error, and the files as they are then. -/
def run (words : List String) (surroundings : Surroundings) : Outcome × Disk :=
  let setting := Setting.plain fun _ => false
  let (outcome, left) := Surroundings.system.execute setting words surroundings
  (outcome.logged setting, left.disk)

end OrderPack.Command
