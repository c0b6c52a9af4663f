import DurableStore.Wire.Encode
import DurableStore.Wire.Fault

/-!
# Failures of the log

The failures that the log reports as its own name it by its path.  Some others pass through
it as they are: a failure of the operating system while the file is being closed, and the
refusal of a file that has been closed already.
-/

namespace DurableStore

/-- Why the log cannot be opened, replayed, written or flushed. -/
inductive LogError
  /-- The file cannot be created. -/
  | cannotOpen (path reason : String)
  /-- The file cannot be read. -/
  | cannotRead (path reason : String)
  /-- A record does not decode, and no continuation of it would. -/
  | corrupt (path : String) (offset : Nat) (error : DecodeError)
  /-- The last record runs past the end of the file, although a complete
  command begins behind it at the offset `follower`. -/
  | overrun (path : String) (offset follower : Nat)
  /-- The log is closed. -/
  | closed (path : String)
  /-- The file cannot be written. -/
  | cannotAppend (path reason : String)
  /-- The file cannot be forced to stable storage. -/
  | cannotFlush (path reason : String)
  /-- The file cannot be forced to stable storage while it is closed. -/
  | cannotFlushOnClose (path reason : String)
  /-- The operating system reports that the file cannot be closed in order. -/
  | cannotClose (reason : String)
  /-- The file, which is closed already, is to be written. -/
  | writeToShut
  /-- The file, which is closed already, is to be flushed. -/
  | flushOfShut
  deriving DecidableEq, Repr

namespace LogError

/-- Whether a failure is one of replaying the log. -/
def isReplay : LogError → Bool
  | .cannotRead _ _ | .corrupt _ _ _ | .overrun _ _ _ => true
  | _ => false

/-- Whether the log reports a failure as its own. -/
def isOwn : LogError → Bool
  | .cannotClose _ | .writeToShut | .flushOfShut => false
  | _ => true

/-- The wording of a failure. -/
def message : LogError → String
  | .cannotOpen path reason => "could not open AOF file " ++ path ++ ": " ++ reason
  | .cannotRead path reason => "could not read AOF file " ++ path ++ ": " ++ reason
  | .corrupt path offset error =>
      s!"corrupt record at offset {offset} in " ++ path ++ ": " ++ error.message
  | .overrun path offset follower =>
      s!"corrupt record at offset {offset} in " ++ path ++
        ": it runs past the end of the file but a complete command " ++
        s!"starts at offset {follower}"
  | .closed path => "AOF " ++ path ++ " is closed"
  | .cannotAppend path reason => "could not append to AOF " ++ path ++ ": " ++ reason
  | .cannotFlush path reason => "could not flush AOF " ++ path ++ ": " ++ reason
  | .cannotFlushOnClose path reason =>
      "could not flush AOF " ++ path ++ " on close: " ++ reason
  | .cannotClose reason => reason
  | .writeToShut => "write to closed file"
  | .flushOfShut => "flush of closed file"

end LogError

/-- Why a value is not appended to the log. -/
inductive AppendError
  /-- The value has no written form. -/
  | unwritable (error : EncodeError)
  /-- The log does not take it. -/
  | refused (error : LogError)
  deriving DecidableEq, Repr

namespace AppendError

/-- Whether the log reports the refusal to append a value as its own. -/
def isOwn : AppendError → Bool
  | .unwritable _ => false
  | .refused error => error.isOwn

/-- The wording of the refusal to append a value. -/
def message : AppendError → String
  | .unwritable error => error.message
  | .refused error => error.message

end AppendError

end DurableStore
