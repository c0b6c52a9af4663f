import DurableStore.Log.Volume

/-!
# A small file system

Paths lead through directories to files.  The file system shows a log what
stands at its path, and takes back what the log made of it.

Main definitions:

- `Disk.place`: what stands at a path.
- `Disk.settle`: let a path name something else.
- `Site`: the path of a log, whose file may be removed while the log is open.
-/

namespace DurableStore

/-- A path below the root, as the names along it. -/
abbrev Path := List String

namespace Path

/-- The path of a text; empty names and names of a single dot lead nowhere
else. -/
def ofString (text : String) : Path :=
  (text.splitOn "/").filter fun name => name != "" && name != "."

/-- The text of a path. -/
def text (path : Path) : String :=
  if path.isEmpty then "." else "/".intercalate path

/-- A text without its empty names and names of a single dot. -/
def normalize (text : String) : String :=
  if text.startsWith "/" then "/" ++ "/".intercalate (ofString text) else (ofString text).text

end Path

/-- A file with its content, or a directory. -/
inductive Node
  | file (content : Bytes)
  | directory
  deriving DecidableEq, Repr

/-- The files and directories below the root, each with its path. -/
structure Disk where
  nodes : List (Path × Node)
  deriving DecidableEq, Repr

namespace Disk

/-- The file system that has only the root. -/
def empty : Disk := ⟨[]⟩

/-- What a path names, if it names something; the root is a directory. -/
def node? (disk : Disk) (path : Path) : Option Node :=
  if path.isEmpty then some .directory else disk.nodes.lookup path

/-- The proper ancestors of a path, the root first. -/
def ancestors (path : Path) : List Path :=
  (List.range path.length).map fun depth => path.take depth

/-- The number of nodes directly below a path. -/
def childCount (disk : Disk) (path : Path) : Nat :=
  (disk.nodes.filter fun entry => entry.1 != [] && entry.1.dropLast == path).length

/-- The size that is reported for a directory: each entry counts twenty, and so
do the two by which it names itself and its parent. -/
def directorySize (disk : Disk) (path : Path) : Nat :=
  20 * (disk.childCount path + 2)

/-- Whether an ancestor of a path is a file. -/
def isBlocked (disk : Disk) (path : Path) : Bool :=
  (ancestors path).any fun ancestor =>
    match disk.node? ancestor with
    | some (.file _) => true
    | _ => false

/-- What stands at a path. -/
def place (disk : Disk) (path : Path) : Place :=
  if disk.isBlocked path then .unreachable
  else match disk.node? path with
    | none => .absent
    | some (.file content) => .file content
    | some .directory => .directory (disk.directorySize path)

/-- Remove what stands at a path. -/
def remove (disk : Disk) (path : Path) : Disk :=
  ⟨disk.nodes.filter fun entry => entry.1 != path⟩

/-- Let a path name something, and its missing ancestors directories. -/
def put (disk : Disk) (path : Path) (node : Node) : Disk :=
  let missing := (ancestors path).filter fun ancestor => (disk.node? ancestor).isNone
  ⟨(path, node) :: missing.map (fun ancestor => (ancestor, .directory)) ++
    (disk.remove path).nodes⟩

/-- Let a path name what an operation on the volume there has left. -/
def settle (disk : Disk) (path : Path) (place : Place) : Disk :=
  match place with
  | .file content => disk.put path (.file content)
  | .absent | .directory _ | .unreachable => disk

/-- Write octets behind the content of the file at a path, creating the file if
there is none. -/
def extend (disk : Disk) (path : Path) (bytes : Bytes) : Disk :=
  match disk.node? path with
  | some (.file content) => disk.put path (.file (content ++ bytes))
  | some .directory => disk
  | none => disk.put path (.file bytes)

/-- The content of the file at a path. -/
def content? (disk : Disk) (path : Path) : Option Bytes :=
  match disk.node? path with
  | some (.file content) => some content
  | _ => none

end Disk

/-- The place of a log in a file system. -/
structure Site where
  disk : Disk
  path : Path
  /-- Whether the file on which the log was opened has been removed. -/
  isOrphaned : Bool
  /-- Whether forcing files to stable storage fails. -/
  syncFails : Bool
  deriving DecidableEq, Repr

namespace Site

/-- A path in the file system that has only the root. -/
def empty (path : Path) : Site := ⟨.empty, path, false, false⟩

/-- What stands at the path. -/
def volume (site : Site) : Volume :=
  ⟨site.disk.place site.path, site.syncFails⟩

/-- What the open end of the log writes to: once its file has been removed,
nothing that another log could find. -/
def handleVolume (site : Site) : Volume :=
  if site.isOrphaned then ⟨.absent, site.syncFails⟩ else site.volume

/-- Take back what an operation has made of a volume. -/
def settle (site : Site) (volume : Volume) : Site :=
  { site with disk := site.disk.settle site.path volume.place }

/-- A log has been opened on the file at the path. -/
def adopt (site : Site) : Site :=
  { site with isOrphaned := false }

/-- The file at the path is removed. -/
def unlink (site : Site) : Site :=
  { site with disk := site.disk.remove site.path, isOrphaned := true }

end Site

end DurableStore
