import OrderPack.Command.Run
import OrderPack.Proofs.Command.Systems

/-! Files in memory that are written and read. Where a path leads does not depend on what the files
hold, and so a path leads to the same file after it has been written; this file then holds what was
written. This is all that is asked of a system that keeps files. -/
namespace OrderPack.Command

namespace Disk

/-- The path leads to a plain file with this content. -/
def Holds (disk : Disk) (path : String) (content : List UInt8) : Prop :=
  ∃ directory name, disk.follow path = .ok (.entry directory name false) ∧
    disk.find directory name = .ok (some (.file content))

/-- The content of the plain file that a path leads to. -/
def plain? (disk : Disk) (path : String) : Option (List UInt8) :=
  match disk.follow path with
  | .ok (.entry directory name false) =>
    match disk.find directory name with
    | .ok (some (.file content)) => some content
    | _ => none
  | _ => none

end Disk

namespace Surroundings

/-- The plain files among the surroundings. -/
def held (now : Surroundings) (path : String) : Option (List UInt8) := now.disk.plain? path

end Surroundings

end OrderPack.Command
