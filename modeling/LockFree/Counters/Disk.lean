/-
# Files and directories

A disk maps places to files and directories. A file is a number of a backing,
so that a mapping of the file and the file itself are the same bytes; a file
that is removed keeps its backing for the mappings that still show it.

A path is followed component by component, and each component but the last
must lead to a directory: `a/../b` needs an `a`. Paths start in the home
directory, which always exists, or, after a slash, at the root. `Disk.find`
follows a path to what stands there, and `Disk.findToWrite` one at which a file
is to be made.
-/
import LockFree.Counters.Error

namespace LockFree.Counters

/-- What stands at a place. -/
inductive DiskEntry
  | file (backing : Nat)
  | directory
  deriving DecidableEq, Repr

/-- The names that lead to a place from the home directory. One that begins
with `..` leads above the home directory; `Location.root` is the root. -/
abbrev Location := List String

namespace Location

/-- The root. No name has a slash in it, so no other place is this one. -/
def root : Location := ["/"]

/-- The directory above one; above the root is the root. -/
def parent (l : Location) : Location :=
  if l = root then root
  else if l.all (· = "..") then ".." :: l
  else l.dropLast

end Location

/-- What a path leads to. -/
inductive Place
  | directory (l : Location)
  | file (l : Location) (backing : Nat)
  /-- Nothing, in a directory that exists. -/
  | vacant (l : Location)
  deriving DecidableEq, Repr

/-- Everything that stands on the disk. -/
structure Disk where
  entries : List (Location × DiskEntry) := []
  deriving DecidableEq, Repr

namespace Disk

/-- The longest name of a file or a directory, in bytes. -/
def maxNameBytes : Nat := 255

/-- The longest path, in bytes. -/
def maxPathBytes : Nat := 4095

/-- What stands at a place. -/
def entry? (d : Disk) (l : Location) : Option DiskEntry := d.entries.lookup l

/-- What a name leads to in a directory. -/
def look (d : Disk) (dir : Location) (name : String) : Except SystemFault Place :=
  if name = "." then .ok (.directory dir)
  else if name = ".." then .ok (.directory dir.parent)
  else if maxNameBytes < name.utf8ByteSize then .error .nameTooLong
  else
    let l := dir ++ [name]
    match d.entry? l with
    | some .directory => .ok (.directory l)
    | some (.file k) => .ok (.file l k)
    | none => .ok (.vacant l)

/-- The directory that names lead to one after another. -/
def enter (d : Disk) (dir : Location) : (names : List String) → Except SystemFault Location
  | [] => .ok dir
  | name :: rest =>
    match d.look dir name with
    | .error fault => .error fault
    | .ok (.directory inner) => d.enter inner rest
    | .ok (.file ..) => .error .notDirectory
    | .ok (.vacant _) => .error .notFound

/-- The components of a path: what slashes part, without the empty ones. -/
def components (path : String) : List String := (path.splitOn "/").filter (· ≠ "")

/-- Where a path starts. -/
def origin (path : String) : Location := if path.startsWith "/" then Location.root else []

/-- The directory in which the last component of a path is looked for, and that
component. A zero character in the path is found before anything else; a path
of slashes only ends in its origin. -/
def approach (d : Disk) (path : String) : Except SystemFault (Location × String) :=
  if path.toList.contains '\x00' then .error .nulInPath
  else if path = "" then .error .notFound
  else if maxPathBytes < path.utf8ByteSize then .error .nameTooLong
  else
    let names := components path
    match d.enter (origin path) names.dropLast with
    | .error fault => .error fault
    | .ok dir => .ok (dir, names.getLastD ".")

/-- What a path leads to. A slash at its end asks for a directory. -/
def find (d : Disk) (path : String) : Except SystemFault Place :=
  match d.approach path with
  | .error fault => .error fault
  | .ok (dir, name) =>
    match d.look dir name with
    | .ok (.file l k) => if path.endsWith "/" then .error .notDirectory else .ok (.file l k)
    | place => place

/-- What a path leads to at which a file is to be made. With a slash at its end
it names a directory, whether there is one or not. -/
def findToWrite (d : Disk) (path : String) : Except SystemFault Place :=
  match d.approach path with
  | .error fault => .error fault
  | .ok (dir, name) => if path.endsWith "/" then .error .isDirectory else d.look dir name

/-- The backing of the file at a path, if a file stands there. -/
def file? (d : Disk) (path : String) : Option Nat :=
  match d.find path with
  | .ok (.file _ k) => some k
  | _ => none

/-- The disk with an entry at a place. -/
def put (d : Disk) (l : Location) (e : DiskEntry) : Disk :=
  ⟨(l, e) :: d.entries.filter fun x => x.1 ≠ l⟩

/-- The disk without the entry at a place. -/
def erase (d : Disk) (l : Location) : Disk := ⟨d.entries.filter fun x => x.1 ≠ l⟩

/-- The disk with every directory that names lead to one after another; where
one cannot be made, neither are those after it. -/
def makeDirectories (d : Disk) (dir : Location) : (names : List String) → Disk
  | [] => d
  | name :: rest =>
    match d.look dir name with
    | .ok (.directory inner) => d.makeDirectories inner rest
    | .ok (.vacant l) => (d.put l .directory).makeDirectories l rest
    | .ok (.file ..) | .error _ => d

end Disk
end LockFree.Counters
