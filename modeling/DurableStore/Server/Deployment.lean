import DurableStore.Server.Connection

/-!
# Deployments

A deployment is a server with the volume of its log and all the connections
there have been.  Connections are numbered in the order in which they were
made.  Everything that can happen to a deployment, faults included, is an event.

Main definitions:

- `Event`: what can happen.
- `Deployment.step`: what it leads to.
- `Deployment.receive`: octets arrive on a connection and are answered.
-/

namespace DurableStore

/-- A server with the volume of its log and its connections. -/
structure Deployment where
  server : Server
  volume : Volume
  connections : List Connection
  deriving DecidableEq

/-- What can happen to a deployment. -/
inductive Event
  /-- The server begins to listen. -/
  | start
  /-- The server ends all connections and no longer listens. -/
  | stop
  /-- A client connects. -/
  | connect (peer : String)
  /-- Octets arrive on a connection. -/
  | deliver (id : Nat) (octets : Bytes)
  /-- The client of a connection sends nothing more. -/
  | finish (id : Nat)
  /-- The handler of a connection takes a turn. -/
  | turn (id : Nat)
  /-- A connection is lost. -/
  | reset (id : Nat)
  /-- Reading from a connection fails in an unforeseen way. -/
  | crash (id : Nat) (reason : String)
  /-- Sending on a connection will reveal that its client is gone. -/
  | breakDrain (id : Nat)
  /-- The background flusher has its round. -/
  | flush
  /-- The log is closed. -/
  | closeLog
  /-- The server is stopped, its log is closed, and a new server is launched
  from the log. -/
  | restart
  /-- From now on attempts to write to the file of the log fail as told. -/
  | obstruct (faults : List Bool)
  /-- Forcing the log to stable storage fails from now on, or no longer
  does. -/
  | setSyncFails (fails : Bool)
  deriving DecidableEq, Repr

/-- What an event leads to. -/
structure Outcome where
  deployment : Deployment
  notices : List Notice
  /-- Why what was to happen failed, if it did. -/
  failure? : Option LogError
  deriving DecidableEq

namespace Outcome

/-- Nothing failed. -/
def quiet (deployment : Deployment) (notices : List Notice) : Outcome :=
  ⟨deployment, notices, none⟩

/-- What happens next leads to another outcome; the first failure counts. -/
def andThen (outcome : Outcome) (next : Deployment → Outcome) : Outcome :=
  let later := next outcome.deployment
  ⟨later.deployment, outcome.notices ++ later.notices, outcome.failure?.or later.failure?⟩

end Outcome

namespace Deployment

/-- A deployment without connections. -/
def ofServer (server : Server) (volume : Volume) : Deployment := ⟨server, volume, []⟩

/-! ## Listening -/

/-- The server begins to listen, unless it does already. -/
def start (deployment : Deployment) : Outcome :=
  if deployment.server.isListening then .quiet deployment []
  else
    .quiet { deployment with server := { deployment.server with isListening := true } }
      [.serving deployment.server.host deployment.server.port]

/-- The number of connections that have not ended. -/
def openCount (deployment : Deployment) : Nat :=
  deployment.connections.countP Connection.isOpen

/-- The server ends all connections and no longer listens. -/
def stop (deployment : Deployment) : Outcome :=
  .quiet
    { deployment with
      server := { deployment.server with isListening := false }
      connections := deployment.connections.map Connection.close }
    (if deployment.openCount = 0 then [] else [.closingConnections deployment.openCount])

/-! ## Connections -/

/-- A client connects. -/
def connect (deployment : Deployment) (peer : String) : Deployment :=
  { deployment with
    server :=
      { deployment.server with connectionCount := deployment.server.connectionCount + 1 }
    connections := deployment.connections ++ [.fresh peer] }

/-- Change a connection. -/
def alter (deployment : Deployment) (id : Nat) (change : Connection → Connection) : Deployment :=
  { deployment with connections := deployment.connections.modify id change }

/-- Reading from a connection fails in an unforeseen way, which is reported
unless the connection has ended. -/
def crash (deployment : Deployment) (id : Nat) (reason : String) : Outcome :=
  match deployment.connections[id]? with
  | none => .quiet deployment []
  | some connection =>
      .quiet (deployment.alter id Connection.close)
        (if connection.isOpen then [.clientFailed connection.peer (.crash reason)] else [])

/-- The handler of a connection takes a turn. -/
def turn (deployment : Deployment) (id : Nat) : Outcome :=
  match deployment.connections[id]? with
  | none => .quiet deployment []
  | some connection =>
      let turn := deployment.server.turn connection
      .quiet
        { deployment with
          server := turn.server
          connections := deployment.connections.set id turn.connection }
        turn.notices

/-- The handler of a connection takes all the turns it can. -/
def settle (deployment : Deployment) (id : Nat) : Outcome :=
  match deployment.connections[id]? with
  | none => .quiet deployment []
  | some connection =>
      let served := deployment.server.serve connection
      .quiet
        { deployment with
          server := served.server
          connections := deployment.connections.set id served.connection }
        served.notices

/-- Octets arrive on a connection and are answered as far as possible. -/
def receive (deployment : Deployment) (id : Nat) (octets : Bytes) : Outcome :=
  (deployment.alter id fun connection => connection.deliver octets).settle id

/-- The client of a connection sends nothing more, and what it has sent is
answered. -/
def hangUp (deployment : Deployment) (id : Nat) : Outcome :=
  (deployment.alter id Connection.finish).settle id

/-! ## The log -/

/-- Let an operation act on the log, if there is one. -/
def actOnLog (deployment : Deployment) (act : Log → Volume → LogStep LogError) : Outcome :=
  match deployment.server.log? with
  | none => .quiet deployment []
  | some log =>
      let done := act log deployment.volume
      { deployment :=
          { deployment with
            server := { deployment.server with log? := some done.log }
            volume := done.volume }
        notices := done.notices
        failure? :=
          match done.result with
          | .ok _ => none
          | .error error => some error }

/-- The background flusher has its round. -/
def flush (deployment : Deployment) : Outcome :=
  deployment.actOnLog Log.tick

/-- The log is closed. -/
def closeLog (deployment : Deployment) : Outcome :=
  deployment.actOnLog Log.close

/-- The log is closed, and a failure that it reports as its own is reported in turn. -/
def releaseLog (deployment : Deployment) : Outcome :=
  let closing := deployment.closeLog
  match closing.failure? with
  | none => closing
  | some error =>
      if error.isOwn then
        .quiet closing.deployment (closing.notices ++ [.closingFailed error])
      else closing

/-- A new server is launched from the log of the present one.  Connections that
have ended are kept. -/
def relaunch (deployment : Deployment) : Outcome :=
  let server := deployment.server
  let launch := Server.launch server.host server.port server.limits server.log? deployment.volume
  match launch.result with
  | .ok server =>
      .quiet { deployment with server, volume := launch.volume } launch.notices
  | .error error => ⟨{ deployment with volume := launch.volume }, launch.notices, some error⟩

/-- The server is stopped, its log is closed, and a new server is launched from
the log. -/
def restart (deployment : Deployment) : Outcome :=
  (deployment.stop.andThen releaseLog).andThen relaunch

/-- From now on attempts to write to the file of the log fail as told. -/
def obstruct (deployment : Deployment) (faults : List Bool) : Deployment :=
  { deployment with
    server :=
      { deployment.server with
        log? := deployment.server.log?.map fun log => log.obstruct faults } }

/-- Forcing the log to stable storage fails from now on, or no longer does. -/
def setSyncFails (deployment : Deployment) (fails : Bool) : Deployment :=
  { deployment with volume := { deployment.volume with syncFails := fails } }

/-! ## Events -/

/-- What an event leads to. -/
def step (deployment : Deployment) : Event → Outcome
  | .start => deployment.start
  | .stop => deployment.stop
  | .connect peer => .quiet (deployment.connect peer) []
  | .deliver id octets =>
      .quiet (deployment.alter id fun connection => connection.deliver octets) []
  | .finish id => .quiet (deployment.alter id Connection.finish) []
  | .turn id => deployment.turn id
  | .reset id => .quiet (deployment.alter id Connection.close) []
  | .crash id reason => deployment.crash id reason
  | .breakDrain id => .quiet (deployment.alter id Connection.breakDrain) []
  | .flush => deployment.flush
  | .closeLog => deployment.closeLog
  | .restart => deployment.restart
  | .obstruct faults => .quiet (deployment.obstruct faults) []
  | .setSyncFails fails => .quiet (deployment.setSyncFails fails) []

end Deployment

end DurableStore
