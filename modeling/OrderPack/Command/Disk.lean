import OrderPack.Text.Split
import OrderPack.Text.Utf8

/-! Files in memory, and how a path leads to them: a small file system for trying the
program out. A path is followed part by part from the working directory, or from the
root if it begins with a slash; every part but the last must lead into a directory.
Directories are the working directory, those above it, and some of those that every
system has below the root. No others can be made. -/
namespace OrderPack.Command

/-- Why a path cannot be read or written. -/
inductive DiskFault where
  | notFound
  | notDirectory
  | isDirectory
  | nameTooLong
  deriving DecidableEq

/-- The system's sentence for a fault, with its number. -/
def DiskFault.message : DiskFault → String
  | .notFound => "No such file or directory (os error 2)"
  | .notDirectory => "Not a directory (os error 20)"
  | .isDirectory => "Is a directory (os error 21)"
  | .nameTooLong => "File name too long (os error 36)"

/-- A directory to which a path can lead. -/
inductive Directory where
  /-- The working directory. -/
  | working
  /-- The directory that is so many levels above the one right above the working
  directory. -/
  | above (levels : Nat)
  /-- The directory of these names below the root. -/
  | system (names : List String)
  deriving DecidableEq

namespace Directory

/-- The directory above this one; the root is above itself. -/
def parent : Directory → Directory
  | .working => .above 0
  | .above levels => .above (levels + 1)
  | .system names => .system names.dropLast

/-- Names of directories below the root. -/
def standardNames : List String :=
  ["bin", "boot", "dev", "etc", "home", "lib", "media", "mnt", "opt", "proc", "root", "run",
    "sbin", "srv", "sys", "tmp", "usr", "var"]

/-- Whether these names lead from the root to a directory that every system has. -/
def isStandard (names : List String) : Bool :=
  match names with
  | [name] => standardNames.contains name
  | [first, second] => first == "usr" && ["bin", "lib", "local", "sbin", "share"].contains second
      || first == "var" && ["log", "tmp"].contains second
  | _ => false

/-- A name in a directory, written as a path. -/
def place : Directory → String → String
  | .working, name => name
  | .above levels, name => String.join (List.replicate (levels + 1) "../") ++ name
  | .system names, name => String.join (names.map ("/" ++ ·)) ++ "/" ++ name

end Directory

/-- What a name stands for in a directory. -/
inductive Entry where
  | directory (inner : Directory)
  | file (content : List UInt8)
  /-- The device that takes everything and holds nothing. -/
  | sink
  /-- The device that hands on the standard input. -/
  | input
  deriving DecidableEq

/-- What a name stands for whatever files there are. -/
def Directory.fixture? : Directory → String → Option Entry
  | .system names, name =>
    if isStandard (names ++ [name]) then some (.directory (.system (names ++ [name])))
    else if names = ["dev"] ∧ name = "null" then some .sink
    else if names = ["dev"] ∧ name = "stdin" then some .input
    else none
  | .working, _ | .above _, _ => none

/-- Files by their places. -/
structure Disk where
  files : List (String × List UInt8)
  deriving DecidableEq

namespace Disk

/-- The content of the file at this place. -/
def content? (disk : Disk) (place : String) : Option (List UInt8) :=
  (disk.files.find? (·.1 == place)).map Prod.snd

/-- The files with this content at this place. -/
def put (disk : Disk) (place : String) (content : List UInt8) : Disk :=
  ⟨(place, content) :: disk.files.filter (·.1 != place)⟩

/-- No name has more bytes than this. -/
def maxName : Nat := 255

/-- No path has more bytes than this. -/
def maxPath : Nat := 4095

/-- What a name stands for in a directory, if it is taken there. -/
def find (disk : Disk) (directory : Directory) (name : String) : Except DiskFault (Option Entry) :=
  if maxName < (Text.bytes name).length then .error .nameTooLong
  else
    .ok ((directory.fixture? name).or ((disk.content? (directory.place name)).map .file))

/-- The directory into which a part of a path leads. -/
def enter (disk : Disk) (directory : Directory) (part : String) : Except DiskFault Directory :=
  if part = "." then .ok directory
  else if part = ".." then .ok directory.parent
  else
    match disk.find directory part with
    | .error fault => .error fault
    | .ok none => .error .notFound
    | .ok (some (.directory inner)) => .ok inner
    | .ok (some _) => .error .notDirectory

/-- What a path is meant for. -/
inductive Target where
  /-- A directory as such. -/
  | directory
  /-- A name in a directory, taken or free. With a slash after it only a directory
  can be meant. -/
  | entry (directory : Directory) (name : String) (slashed : Bool)
  deriving DecidableEq

/-- The parts of a path, of which there are none between two slashes. -/
def parts (path : String) : List String :=
  ((Text.splitBy (· == '/') path.toList).filter (!·.isEmpty)).map String.ofList

/-- Follows a path up to its last part. -/
def follow (disk : Disk) (path : String) : Except DiskFault Target :=
  if path.isEmpty then .error .notFound
  else if maxPath < (Text.bytes path).length then .error .nameTooLong
  else
    let start := if path.toList.head? = some '/' then .system [] else .working
    match (parts path).getLast? with
    | none => .ok .directory
    | some last =>
      match (parts path).dropLast.foldlM disk.enter start with
      | .error fault => .error fault
      | .ok directory =>
        if last = "." ∨ last = ".." then .ok .directory
        else .ok (.entry directory last (path.toList.getLast? = some '/'))

/-- The bytes read at a path, `input` being those of the standard input. -/
def read (disk : Disk) (input : List UInt8) (path : String) : Except DiskFault (List UInt8) := do
  match ← disk.follow path with
  | .directory => .error .isDirectory
  | .entry directory name slashed =>
    let held (content : List UInt8) : Except DiskFault (List UInt8) :=
      if slashed then .error .notDirectory else .ok content
    match ← disk.find directory name with
    | none => .error .notFound
    | some (.directory _) => .error .isDirectory
    | some (.file content) => held content
    | some .sink => held []
    | some .input => held input

/-- Gives the file at a path this content, whether or not it was there. -/
def write (disk : Disk) (path : String) (content : List UInt8) : Except DiskFault Disk := do
  match ← disk.follow path with
  | .directory => .error .isDirectory
  | .entry directory name slashed =>
    if slashed then .error .isDirectory
    else
      match ← disk.find directory name with
      | some (.directory _) => .error .isDirectory
      | some .sink | some .input => return disk
      | some (.file _) | none => return disk.put (directory.place name) content

end Disk

end OrderPack.Command
