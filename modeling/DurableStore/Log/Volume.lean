import DurableStore.Bytes

/-!
# What the log stands on

The log is a file at some path.  The path may also name nothing yet, a
directory, or nothing that could ever be a file because an ancestor is a file.
Forcing the file to stable storage may fail; that never loses octets that have
been written.

Main definitions:

- `Volume.create`: make sure that there is something at the path.
- `Volume.read`, `Volume.write`, `Volume.truncate`: the file's content.
-/

namespace DurableStore

/-- What a path names. -/
inductive Place
  /-- Nothing, but a file can be created there. -/
  | absent
  /-- A file. -/
  | file (content : Bytes)
  /-- A directory, of the size that the file system reports. -/
  | directory (size : Nat)
  /-- Nothing, and an ancestor is a file. -/
  | unreachable
  deriving DecidableEq, Repr

/-- The place of the log, and whether forcing it to stable storage fails. -/
structure Volume where
  place : Place
  syncFails : Bool
  deriving DecidableEq, Repr

namespace Volume

/-- The text of an error of the operating system, which depends on the system
and stands for itself in messages. -/
def systemError : String := "<os error>"

/-- The content of the file, if there is one. -/
def content? (volume : Volume) : Option Bytes :=
  match volume.place with
  | .file content => some content
  | _ => none

/-- The size that the file system reports, and zero if it reports none. -/
def size (volume : Volume) : Nat :=
  match volume.place with
  | .file content => content.length
  | .directory size => size
  | .absent | .unreachable => 0

/-- Create an empty file with its directories if nothing is there. -/
def create (volume : Volume) : Except String Volume :=
  match volume.place with
  | .absent => .ok { volume with place := .file [] }
  | .file _ | .directory _ => .ok volume
  | .unreachable => .error systemError

/-- Read the file. -/
def read (volume : Volume) : Except String Bytes :=
  match volume.place with
  | .file content => .ok content
  | .absent | .directory _ | .unreachable => .error systemError

/-- Write octets behind the file's content.  Octets for a file that has been
removed are lost. -/
def write (volume : Volume) (bytes : Bytes) : Volume :=
  match volume.place with
  | .file content => { volume with place := .file (content ++ bytes) }
  | .absent | .directory _ | .unreachable => volume

/-- Cut the file's content down to its first `length` octets. -/
def truncate (volume : Volume) (length : Nat) : Volume :=
  match volume.place with
  | .file content => { volume with place := .file (content.take length) }
  | .absent | .directory _ | .unreachable => volume

end Volume

end DurableStore
