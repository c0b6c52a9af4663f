import DurableStore.Command
import DurableStore.Keyspace

/-!
# The command engine

Commands run against a keyspace and always answer with a value.  A command
that is unknown, has the wrong number of arguments, or names a key by
something other than a present bulk string is answered with an error line and
changes nothing.

Main definitions:

- `Keyspace.run`: one command.
- `Keyspace.dispatch`: the command of a given name.
- `Keyspace.execute`: the command that a request value asks for.
-/

namespace DurableStore

namespace Reply

/-- The answer to a successful write. -/
def ok : Value := .simple (Bytes.ofString "OK")

/-- The answer to a ping without a message. -/
def pong : Value := .simple (Bytes.ofString "PONG")

/-- The answer to a command with the wrong number of arguments. -/
def wrongArity (verb : Verb) : Value :=
  .error (Bytes.ofString ("wrong number of arguments for '" ++ verb.word ++ "'"))

/-- The answer to a command with an argument that is not a present bulk
string where one is required. -/
def invalidArgument (verb : Verb) : Value :=
  .error (Bytes.ofString ("Invalid " ++ verb.word ++ " argument"))

/-- The answer to a command that does not exist. -/
def unknown : Value := .error (Bytes.ofString "unknown command")

end Reply

namespace Keyspace

/-- The answer to a ping: its messages, separated by blanks. -/
def ping (args : List Value) : Value :=
  match args with
  | [] => Reply.pong
  | _ =>
      match args.mapM Value.payload? with
      | some messages => .bulk (Bytes.join [0x20] messages)
      | none => Reply.invalidArgument .ping

/-- The answer to a request for the value of a key. -/
def fetch (keyspace : Keyspace) (args : List Value) : Value :=
  match args with
  | [arg] =>
      match arg.payload? with
      | some key => (keyspace.get? key).getD .null
      | none => Reply.invalidArgument .get
  | _ => Reply.wrongArity .get

/-- Set a key to a value.  Requests hold bulk strings; a foreign `none` that an
application passes as the value, which would leave the cell of the key empty, is
left aside. -/
def store (keyspace : Keyspace) (args : List Value) : Value × Keyspace :=
  match args with
  | [arg, value] =>
      match arg.payload? with
      | some key => (Reply.ok, keyspace.put key (some value))
      | none => (Reply.invalidArgument .set, keyspace)
  | _ => (Reply.wrongArity .set, keyspace)

/-- Remove keys, and answer with the number of those that had a value. -/
def remove (keyspace : Keyspace) (args : List Value) : Value × Keyspace :=
  match args with
  | [] => (Reply.wrongArity .del, keyspace)
  | _ =>
      match args.mapM Value.payload? with
      | some keys =>
          let removal := keyspace.deleteMany keys
          (.integer removal.1, removal.2)
      | none => (Reply.invalidArgument .del, keyspace)

/-- Run a command. -/
def run (keyspace : Keyspace) : Verb → List Value → Value × Keyspace
  | .ping, args => (ping args, keyspace)
  | .get, args => (keyspace.fetch args, keyspace)
  | .set, args => keyspace.store args
  | .del, args => keyspace.remove args

/-- Run the command of the given name. -/
def dispatch (keyspace : Keyspace) (name : Bytes) (args : List Value) : Value × Keyspace :=
  match Verb.ofName? name with
  | some verb => keyspace.run verb args
  | none => (Reply.unknown, keyspace)

/-- Run the command that a value requests. -/
def execute (keyspace : Keyspace) (request : Value) : Except CommandError (Value × Keyspace) :=
  match Command.parse request with
  | .ok command => .ok (keyspace.dispatch command.name command.args)
  | .error error => .error error

end Keyspace

end DurableStore
