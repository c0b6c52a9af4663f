import DurableStore.Number.Signed
import DurableStore.Text.Capital
import DurableStore.Text.Quoted
import DurableStore.Wire.Value

/-!
# Commands

A request is an array of present bulk strings: a command name and its
arguments.  Names are compared without regard to case.

Main definitions:

- `Verb.ofName?`: the command that a name stands for.
- `Command.parse`: the command that a value requests.
- `Command.toValue`: the array form of a command, as it is written to the log.
- `Command.request`: the array form of a command given by plain arguments.

Names and text arguments are given by their octets.  An application can also
give texts with surrogates that no octets are read as; they are left aside,
since a text must be valid, and every surrogate makes it invalid.
-/

namespace DurableStore

/-! ## Command names -/

/-- The commands that exist. -/
inductive Verb
  | ping
  | get
  | set
  | del
  deriving DecidableEq, Repr

namespace Verb

/-- The name of a command in capitals. -/
def word : Verb → String
  | .ping => "PING"
  | .get => "GET"
  | .set => "SET"
  | .del => "DEL"

/-- The commands by name. -/
def table : List (String × Verb) :=
  [.ping, .get, .set, .del].map fun verb => (verb.word, verb)

/-- The command that a name stands for without regard to case. -/
def ofName? (name : Bytes) : Option Verb :=
  Text.lookupWord? table (Text.glyphs name)

/-- Whether a command changes the keyspace and must be logged. -/
def isWrite : Verb → Bool
  | .set | .del => true
  | .ping | .get => false

/-- Whether an accepted command of this name must be logged. -/
def nameIsWrite (name : Bytes) : Bool :=
  match ofName? name with
  | some verb => verb.isWrite
  | none => false

end Verb

/-! ## Requests -/

/-- Why a value is not a request. -/
inductive CommandError
  /-- The value is not an array. -/
  | notArray (kind : ValueKind)
  /-- The array is absent or has no items. -/
  | empty
  /-- An item is not a present bulk string. -/
  | badArgument (index : Nat)
  deriving DecidableEq, Repr

namespace CommandError

/-- The wording of the refusal of a request. -/
def message : CommandError → String
  | .notArray kind => "expected array, got " ++ kind.name
  | .empty => "empty command"
  | .badArgument index => s!"argument {index} is not a bulk string"

end CommandError

/-- A command name with its arguments, and the request it was taken from if
there was one. -/
structure Command where
  name : Bytes
  args : List Value
  source? : Option Value
  deriving DecidableEq, Repr

namespace Command

/-- The command that a command's name stands for. -/
def verb? (command : Command) : Option Verb :=
  Verb.ofName? command.name

/-- The index of the first item that is not a present bulk string. -/
def firstBad? (items : List Value) : Option Nat :=
  items.findIdx? fun item => item.payload?.isNone

/-- The command that a value requests. -/
def parse (request : Value) : Except CommandError Command :=
  match request with
  | .absentArray => .error .empty
  | .array items =>
      match firstBad? items, items with
      | some index, _ => .error (.badArgument index)
      | none, name :: args => .ok ⟨(name.payload?).getD [], args, some request⟩
      | none, [] => .error .empty
  | other => .error (.notArray other.kind)

/-- The array form of a command: the request it was taken from, or else its
name and arguments.  A name that is no valid text has no such form of its
own. -/
def toValue (command : Command) : Except StrayRun Value :=
  match command.source? with
  | some request => .ok request
  | none =>
      match Text.validOctets command.name with
      | .error run => .error run
      | .ok name => .ok (.array (.bulk name :: command.args))

end Command

/-! ## Plain arguments -/

/-- A command argument as an application gives it. -/
inductive Argument
  | text (text : Bytes)
  | bytes (bytes : Bytes)
  | integer (number : Int)
  deriving DecidableEq, Repr

namespace Argument

/-- The octets that carry an argument: text must be valid, other octets are
taken as they are, integers are written in decimal.  That an integer may have
too many digits to be written, which are more than 4300 unless the limit is set
otherwise, is left aside. -/
def payload : Argument → Except StrayRun Bytes
  | .text given => Text.validOctets given
  | .bytes given => .ok given
  | .integer given => .ok (Numeral.ofInt given)

end Argument

/-- The array form of the command with a name and plain arguments. -/
def Command.request (name : Bytes) (args : List Argument) : Except StrayRun Value := do
  let name ← Text.validOctets name
  let payloads ← args.mapM Argument.payload
  return .array (.bulk name :: payloads.map .bulk)

end DurableStore
