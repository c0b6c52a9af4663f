import DurableStore.Engine
import DurableStore.Log.Basic

/-!
# The server

A server holds a keyspace and, unless it runs without one, a log.  It answers
requests one at a time.  A write that was accepted goes to the log before it is
answered; if the log does not take it, the keyspace keeps the write all the
same and the failure is only counted and reported.  The server does not foresee
a failure that the log does not report as its own: the keyspace keeps the write
then, too, but nothing is counted, and nobody is left to answer the request.

Main definitions:

- `Server.process`: answer one request.
- `Server.launch`: a server that takes its keyspace from its log.
-/

namespace DurableStore

/-! ## Answers of the server -/

namespace Reply

/-- The answer to a value that is no request. -/
def invalidCommand (error : CommandError) : Value :=
  .error (Bytes.ofString ("ERR invalid command: " ++ error.message))

/-- The last answer on a connection on which no further value can be found. -/
def protocolError (reason : String) : Value :=
  .error (Bytes.ofString ("ERR protocol error: " ++ reason))

end Reply

/-! ## Servers -/

/-- A server. -/
structure Server where
  host : String
  port : Int
  limits : Limits
  keyspace : Keyspace
  /-- The log, unless the server runs without one. -/
  log? : Option Log
  /-- Whether the server listens for connections. -/
  isListening : Bool
  /-- The number of connections there have been. -/
  connectionCount : Nat
  /-- The number of requests there have been. -/
  commandCount : Nat
  /-- The number of accepted writes that the log did not take. -/
  appendFailures : Nat
  deriving DecidableEq

/-- What answering a request leads to. -/
structure Processed where
  /-- The reply, unless a failure prevents it. -/
  reply : Value
  server : Server
  notices : List Notice
  /-- The unforeseen failure that prevents the reply, if there is one. -/
  failure? : Option AppendError
  deriving DecidableEq

/-- What launching a server leads to. -/
structure Launch where
  volume : Volume
  notices : List Notice
  result : Except LogError Server

namespace Server

/-- A server that has served nobody. -/
def create (host : String) (port : Int) (limits : Limits) (keyspace : Keyspace)
    (log? : Option Log) : Server :=
  { host, port, limits, keyspace, log?, isListening := false,
    connectionCount := 0, commandCount := 0, appendFailures := 0 }

/-- A server whose keyspace is what its log holds.  Without a log the keyspace
is empty. -/
def launch (host : String) (port : Int) (limits : Limits) (log? : Option Log)
    (volume : Volume) : Launch :=
  match log? with
  | none => ⟨volume, [], .ok (create host port limits .empty none)⟩
  | some log =>
      let opening := log.opening volume .empty
      ⟨opening.volume, opening.notices,
        opening.result.map fun log => create host port limits opening.keyspace (some log)⟩

/-- Whether a request of the given name with the given reply goes to the log:
it does if it was a write and was accepted. -/
def isLogged (name : Bytes) (reply : Value) : Bool :=
  Verb.nameIsWrite name && !reply.isError

/-- Write an accepted request to the log, and answer it with a reply. -/
def record (server : Server) (request reply : Value) : Processed :=
  match server.log? with
  | none => ⟨reply, server, [], none⟩
  | some log =>
      match log.append request with
      | (.ok _, log) => ⟨reply, { server with log? := some log }, [], none⟩
      | (.error error, log) =>
          if error.isOwn then
            ⟨reply,
              { server with log? := some log, appendFailures := server.appendFailures + 1 },
              [.appendFailed error], none⟩
          else ⟨reply, { server with log? := some log }, [], some error⟩

/-- Run the command of a name, and log it if it is an accepted write. -/
def perform (server : Server) (command : Command) (request : Value) : Processed :=
  let answer := server.keyspace.dispatch command.name command.args
  let served :=
    { server with keyspace := answer.2, commandCount := server.commandCount + 1 }
  if isLogged command.name answer.1 then served.record request answer.1
  else ⟨answer.1, served, [], none⟩

/-- Answer one request. -/
def process (server : Server) (request : Value) : Processed :=
  match Command.parse request with
  | .error error => ⟨Reply.invalidCommand error, server, [], none⟩
  | .ok command => server.perform command request

end Server

end DurableStore
