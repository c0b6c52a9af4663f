import DurableStore.Proofs.Keyspace.Writes
import DurableStore.Proofs.Server.Histories

/-!
# What the log is to a server

As long as its log is not half closed, a server answers as if it had none: whether there
is a log, whether its writes work, and whether it has been closed, concerns neither the
replies nor the keyspace.  The log in turn holds the accepted writes that it took, once
each and in the order in which they were answered; every other accepted write is counted.
A log that is half closed does concern the client: an accepted write then has its effect,
but it is not answered, and its connection ends.

Main results:

- Definition `Server.unlogged`: the server as it would be without its log.
- Theorem `Server.process_unlogged`: it answers alike.
- Theorem `Erases.step` and `Erases.run`: every event and every run lead to the same
  connections and the same keyspace.
- Theorem `Server.isAccepted_process`: which requests are accepted writes.
- Theorem `History.run_logging`: what the log holds, and what it does not affect.
- Theorem `History.halfClosed_unanswered`: a run in which the log becomes half closed.
-/

namespace DurableStore

/-! ## A server without its log -/

namespace Server

variable (server : Server)

/-- The server as it would be without its log. -/
def unlogged : Server :=
  { server with log? := none, appendFailures := 0 }

/-- Recording a request concerns the log and the failures alone, and does not touch the
reply. -/
theorem unlogged_record (request reply : Value) :
    (server.record request reply).reply = reply ∧
      (server.record request reply).server.unlogged = server.unlogged := by
  unfold record
  split
  · exact ⟨rfl, rfl⟩
  · split
    · exact ⟨rfl, rfl⟩
    · split <;> exact ⟨rfl, rfl⟩

/-- A request is answered alike without the log. -/
theorem process_unlogged (request : Value) :
    (server.unlogged.process request).reply = (server.process request).reply ∧
      (server.unlogged.process request).server = (server.process request).server.unlogged := by
  unfold process
  split
  · exact ⟨rfl, rfl⟩
  · rename_i command _
    simp only [perform]
    have hkeyspace : server.unlogged.keyspace = server.keyspace := rfl
    rw [hkeyspace]
    split
    · obtain ⟨hreply, hserver⟩ := unlogged_record
        { server with
          keyspace := (server.keyspace.dispatch command.name command.args).2
          commandCount := server.commandCount + 1 }
        request (server.keyspace.dispatch command.name command.args).1
      rw [hreply, hserver]
      exact ⟨rfl, rfl⟩
    · exact ⟨rfl, rfl⟩

/-- A turn of a handler does the same without the log, unless the log is half closed. -/
theorem turn_unlogged (hwhole : server.logIsHalfClosed = false) (connection : Connection) :
    (server.unlogged.turn connection).activity = (server.turn connection).activity ∧
      (server.unlogged.turn connection).connection = (server.turn connection).connection ∧
      (server.unlogged.turn connection).server = (server.turn connection).server.unlogged := by
  have hlimits : server.unlogged.limits = server.limits := rfl
  have hnone : server.unlogged.logIsHalfClosed = false := rfl
  unfold turn
  rw [hlimits]
  split
  · exact ⟨rfl, rfl, rfl⟩
  · split
    · rename_i request stream hnext
      obtain ⟨hreply, hserver⟩ := server.process_unlogged request
      simp only [Connection.respond_process hwhole, Connection.respond_process hnone, hreply,
        hserver]
      exact ⟨trivial, trivial, trivial⟩
    all_goals exact ⟨rfl, rfl, rfl⟩

end Server

/-! ## Runs without the log -/

/-- The other deployment is what this one would be without its log. -/
structure Erases (deployment other : Deployment) : Prop where
  server_eq : other.server = deployment.server.unlogged
  connections_eq : other.connections = deployment.connections

namespace Erases

variable {deployment other : Deployment} {event : Event}

/-- A turn answers the same request without the log, unless the log is half closed. -/
theorem turn (herases : Erases deployment other)
    (hwhole : deployment.server.logIsHalfClosed = false) (id : Nat) :
    Erases (deployment.turn id).deployment (other.turn id).deployment ∧
      (other.answered (.turn id)).map Transaction.exchange =
        (deployment.answered (.turn id)).map Transaction.exchange := by
  obtain ⟨hserver, hconnections⟩ := herases
  simp only [Deployment.turn, Deployment.answered, hserver, hconnections]
  cases deployment.connections[id]? with
  | none => exact ⟨⟨hserver, hconnections⟩, rfl⟩
  | some connection =>
      obtain ⟨hactivity, hconnection, hafter⟩ := deployment.server.turn_unlogged hwhole connection
      simp only [hactivity, hconnection, hafter]
      refine ⟨⟨rfl, rfl⟩, ?_⟩
      cases (deployment.server.turn connection).activity <;> rfl

/-- An operation on the log concerns nothing else. -/
theorem actOnLog (herases : Erases deployment other) (act : Log → Volume → LogStep LogError) :
    Erases (deployment.actOnLog act).deployment (other.actOnLog act).deployment := by
  obtain ⟨hserver, hconnections⟩ := herases
  have hnone : other.server.log? = none := by rw [hserver]; rfl
  simp only [Deployment.actOnLog, hnone]
  split
  · exact ⟨hserver, hconnections⟩
  · exact ⟨hserver, hconnections⟩

/-- A change to a connection is the same without the log. -/
theorem alter (herases : Erases deployment other) (id : Nat) (change : Connection → Connection) :
    Erases (deployment.alter id change) (other.alter id change) :=
  ⟨herases.server_eq, congrArg (List.modify · id change) herases.connections_eq⟩

/-- Every event but a restart leads to the same without the log, unless the log is half
closed. -/
theorem step (herases : Erases deployment other)
    (hwhole : deployment.server.logIsHalfClosed = false) (hevent : event ≠ .restart) :
    Erases (deployment.step event).deployment (other.step event).deployment ∧
      (other.answered event).map Transaction.exchange =
        (deployment.answered event).map Transaction.exchange := by
  cases event with
  | turn id => exact turn herases hwhole id
  | flush => exact ⟨herases.actOnLog _, rfl⟩
  | closeLog => exact ⟨herases.actOnLog _, rfl⟩
  | restart => exact absurd rfl hevent
  | start =>
      obtain ⟨hserver, hconnections⟩ := herases
      refine ⟨?_, rfl⟩
      have hlistens : other.server.isListening = deployment.server.isListening := by
        rw [hserver]
        rfl
      simp only [Deployment.step, Deployment.start, hlistens]
      split
      · exact ⟨hserver, hconnections⟩
      · exact ⟨by rw [Outcome.quiet, hserver]; rfl, hconnections⟩
  | stop =>
      obtain ⟨hserver, hconnections⟩ := herases
      refine ⟨⟨?_, ?_⟩, rfl⟩
      · simp only [Deployment.step, Deployment.stop, Outcome.quiet, hserver]
        rfl
      · simp only [Deployment.step, Deployment.stop, Outcome.quiet, hconnections]
  | connect peer =>
      obtain ⟨hserver, hconnections⟩ := herases
      refine ⟨⟨?_, ?_⟩, rfl⟩
      · simp only [Deployment.step, Deployment.connect, Outcome.quiet, hserver]
        rfl
      · simp only [Deployment.step, Deployment.connect, Outcome.quiet, hconnections]
  | crash id reason =>
      refine ⟨?_, rfl⟩
      have halter := herases.alter id Connection.close
      simp only [Deployment.step, Deployment.crash, herases.connections_eq]
      split
      · exact herases
      · exact halter
  | obstruct faults =>
      obtain ⟨hserver, hconnections⟩ := herases
      refine ⟨⟨?_, hconnections⟩, rfl⟩
      simp only [Deployment.step, Deployment.obstruct, Outcome.quiet, hserver]
      rfl
  | setSyncFails fails => exact ⟨⟨herases.server_eq, herases.connections_eq⟩, rfl⟩
  | deliver id octets => exact ⟨herases.alter id _, rfl⟩
  | finish id => exact ⟨herases.alter id _, rfl⟩
  | reset id => exact ⟨herases.alter id _, rfl⟩
  | breakDrain id => exact ⟨herases.alter id _, rfl⟩

/-- So does every run without a restart in which the log is never half closed, and it answers
the same requests alike. -/
theorem run {history apart : History} (herases : Erases history.deployment apart.deployment)
    (hexchanges : apart.exchanges = history.exchanges) {events : List Event}
    (hevents : ∀ event ∈ events, event ≠ .restart) (hintact : history.Intact events) :
    Erases (history.run events).deployment (apart.run events).deployment ∧
      (apart.run events).exchanges = (history.run events).exchanges := by
  induction events generalizing history apart with
  | nil => exact ⟨herases, hexchanges⟩
  | cons event events ih =>
      obtain ⟨hevent, hrest⟩ := List.forall_mem_cons.mp hevents
      obtain ⟨hwhole, hlater⟩ := History.Intact.cons_iff.mp hintact
      obtain ⟨hnext, hanswered⟩ := herases.step hwhole hevent
      have hmore : (apart.step event).exchanges = (history.step event).exchanges := by
        simp only [History.exchanges, History.step, List.map_append, hanswered] at hexchanges ⊢
        rw [hexchanges]
      exact ih hnext hmore hrest hlater

end Erases

/-! ## Accepted writes -/

namespace Server

/-- Setting a key is accepted exactly if a key and a value are given. -/
theorem isError_store (keyspace : Keyspace) (payloads : List Bytes) :
    (keyspace.store (payloads.map .bulk)).1.isError = false ↔
      (payloads.map Value.bulk).length = 2 := by
  rw [← Bool.not_eq_true, keyspace.isError_store_iff]
  cases payloads <;> simp [Value.IsKey]

/-- Removing keys is accepted exactly if there is a key, whether or not it is
present. -/
theorem isError_remove (keyspace : Keyspace) (payloads : List Bytes) :
    (keyspace.remove (payloads.map .bulk)).1.isError = false ↔ payloads.map Value.bulk ≠ [] := by
  rw [← Bool.not_eq_true, keyspace.isError_remove_iff]
  simp [Value.IsKey]

/-- A request is an accepted write exactly if it is to set a key to a value or to
remove at least one key. -/
theorem isAccepted_process (server : Server) (id : Nat) (request : Value) :
    Exchange.isAccepted ⟨id, request, (server.process request).reply⟩ = true ↔
      ∃ command, Command.parse request = .ok command ∧
        (command.verb? = some .set ∧ command.args.length = 2 ∨
          command.verb? = some .del ∧ command.args ≠ []) := by
  cases hparse : Command.parse request with
  | error error => simp [Exchange.isAccepted, hparse]
  | ok command =>
      obtain ⟨hreply, -, -⟩ := process_of_parse_ok hparse server
      obtain ⟨name, payloads, rfl, rfl⟩ := Command.parse_eq_ok.mp hparse
      have hstore := isError_store server.keyspace payloads
      have hremove := isError_remove server.keyspace payloads
      simp only [Exchange.isAccepted, hparse, hreply, isLogged, Verb.nameIsWrite, Keyspace.dispatch,
        Except.ok.injEq, exists_eq_left', Command.verb?]
      cases hverb : Verb.ofName? name with
      | none => simp
      | some verb =>
          cases verb with
          | ping => simp [Verb.isWrite]
          | get => simp [Verb.isWrite]
          | set => simpa [Verb.isWrite, Keyspace.run] using hstore
          | del => simpa [Verb.isWrite, Keyspace.run] using hremove

end Server

/-! ## Runs -/

namespace History

/-- Every request was answered by a server. -/
theorem replies_run {server : Server} {volume : Volume} {events : List Event}
    (hevents : ∀ event ∈ events, event ≠ .restart) :
    ∀ exchange ∈ ((start server volume).run events).exchanges,
      ∃ other : Server, exchange.reply = (other.process exchange.request).reply := by
  refine run_induction (motive := fun history => ∀ exchange ∈ history.exchanges,
    ∃ other : Server, exchange.reply = (other.process exchange.request).reply) hevents ?_ ?_
  · intro exchange hexchange
    cases hexchange
  · intro history event _ hreplies exchange hexchange
    simp only [exchanges, step, List.map_append, List.mem_append] at hexchange
    rcases hexchange with hold | hnew
    · exact hreplies exchange hold
    · obtain ⟨transaction, htransaction, rfl⟩ := List.mem_map.mp hnew
      exact ⟨_, (Deployment.mem_answered htransaction).2.2.1⟩

/-- What the log is to a server in the course of some events, which lead to the given
history. -/
structure Logging (server : Server) (log : Log) (volume : Volume) (events : List Event)
    (history : History) : Prop where
  /-- Without the log, the same requests are answered alike, in the same order. -/
  exchanges_eq : ∀ unused,
    ((start server.unlogged unused).run events).exchanges = history.exchanges
  /-- Without the log, the same is sent on every connection, and the same connections
  have ended. -/
  connections_eq : ∀ unused,
    ((start server.unlogged unused).run events).deployment.connections =
      history.deployment.connections
  /-- Without the log, the server becomes the same but for its log; so does its
  keyspace. -/
  server_eq : ∀ unused,
    ((start server.unlogged unused).run events).deployment.server =
      history.deployment.server.unlogged
  /-- An accepted write sets a key to a value, or removes keys, be they present or
  not. -/
  accepted_iff : ∀ exchange ∈ history.exchanges,
    exchange.isAccepted = true ↔
      ∃ command, Command.parse exchange.request = .ok command ∧
        (command.verb? = some .set ∧ command.args.length = 2 ∨
          command.verb? = some .del ∧ command.args ≠ [])
  /-- An accepted write is recorded exactly if appending it does not fail. -/
  recorded_iff : ∀ before event after, events = before ++ event :: after →
    ∃ current, ((start server volume).run before).deployment.server.log? = some current ∧
      ∀ transaction ∈ ((start server volume).run before).deployment.answered event,
        transaction.isRecorded = true ↔
          transaction.exchange.isAccepted = true ∧
            (current.append transaction.exchange.request).1.isOk = true
  /-- Recorded requests have a written form. -/
  encode_eq : ∀ request ∈ history.recorded, request.encode = .ok request.wire
  /-- The log holds the recorded requests behind what it held before, and has counted
  them; the other accepted writes have been counted as failures. -/
  log_eq : ∃ current, history.deployment.server.log? = some current ∧
    (∀ content, volume.place = .file content →
      current.written history.deployment.volume =
        log.written volume ++ history.recorded.flatMap Value.wire) ∧
    current.appended = log.appended + history.recorded.length ∧
    history.deployment.server.appendFailures + current.appended =
      server.appendFailures + log.appended +
        (history.exchanges.filter Exchange.isAccepted).length

/-- Whatever befalls the log of a server, unless it is half closed, replies and keyspace are
what they would be without it, and it holds exactly the accepted writes that it took. -/
theorem run_logging {server : Server} {log : Log} (hlog : server.log? = some log)
    (volume : Volume) {events : List Event} (hevents : ∀ event ∈ events, event ≠ .restart)
    (hintact : (start server volume).Intact events) :
    Logging server log volume events ((start server volume).run events) := by
  have hwithout : ∀ unused, Erases ((start server volume).run events).deployment
      ((start server.unlogged unused).run events).deployment ∧
      ((start server.unlogged unused).run events).exchanges =
        ((start server volume).run events).exchanges := by
    intro unused
    have hfirst : Erases (start server volume).deployment
        (start server.unlogged unused).deployment := ⟨rfl, rfl⟩
    exact hfirst.run rfl hevents hintact
  have hlogged := Logged.run hlog volume hevents hintact
  constructor
  case exchanges_eq => exact fun unused => (hwithout unused).2
  case connections_eq => exact fun unused => (hwithout unused).1.connections_eq
  case server_eq => exact fun unused => (hwithout unused).1.server_eq
  case accepted_iff =>
    intro exchange hexchange
    obtain ⟨other, hreply⟩ := replies_run hevents exchange hexchange
    rw [← other.isAccepted_process exchange.id exchange.request, ← hreply]
  case recorded_iff =>
    rintro before event after rfl
    have hbefore : ∀ other ∈ before, other ≠ .restart := fun other hother =>
      hevents other (List.mem_append_left _ hother)
    obtain ⟨current, hcurrent, -⟩ := (Logged.run hlog volume hbefore hintact.left).log_eq
    refine ⟨current, hcurrent, fun transaction htransaction => ?_⟩
    have hrecordable := (Deployment.mem_answered htransaction).2.2.2
    rw [Transaction.isRecorded, Bool.and_eq_true, hrecordable, Server.records, hcurrent,
      Option.any_some]
  case encode_eq => exact hlogged.encode_eq
  case log_eq =>
    obtain ⟨current, hcurrent, hcount, hwritten⟩ := hlogged.log_eq
    have hsum := hlogged.count_eq
    exact ⟨current, hcurrent, hwritten, hcount, by omega⟩

/-- Two clients are served.  A removal of an absent key waits when a flush fails, another does
not fit into the buffer and is lost, and a third comes after the log has been closed, which
fails at first. -/
theorem run_logging_faults :
    let log : Log :=
      { Log.unopened "log.aof" .standard .one with handle? := some .fresh, room := 30 }
    let server := Server.create "localhost" 6379 .standard .empty (some log)
    let events : List Event :=
      [.start, .connect "one", .connect "two",
        .deliver 0 (Bytes.ofString "*2\r\n$3\r\nDEL\r\n$1\r\nk\r\n"), .turn 0,
        .obstruct [true, true, true, false], .flush,
        .deliver 1 (Bytes.ofString "*2\r\n$3\r\nDEL\r\n$1\r\nk\r\n"), .turn 1, .closeLog,
        .deliver 0 (Bytes.ofString "*2\r\n$3\r\nDEL\r\n$1\r\nk\r\n"), .turn 0]
    Logging server log ⟨.file [], true⟩ events ((start server ⟨.file [], true⟩).run events) :=
  run_logging rfl _ (by decide) (by decide +kernel)

/-- A record waits in the buffer of the log, and then no octet can be written any more while the
log is closed.  The next accepted write is neither answered nor counted; without the log it is
answered. -/
theorem halfClosed_unanswered :
    let log : Log := { Log.unopened "log.aof" .standard .one with handle? := some .fresh }
    let server := Server.create "localhost" 6379 .standard .empty (some log)
    let request := Bytes.ofString "*2\r\n$3\r\nDEL\r\n$1\r\nk\r\n"
    let events : List Event :=
      [.start, .connect "one", .deliver 0 request, .turn 0, .obstruct [true, true], .closeLog,
        .deliver 0 request, .turn 0]
    let history := (start server ⟨.file [], false⟩).run events
    let apart := (start server.unlogged ⟨.file [], false⟩).run events
    history.deployment.connections.map Connection.sent = [[Bytes.ofString ":0\r\n"]] ∧
      apart.deployment.connections.map Connection.sent =
        [[Bytes.ofString ":0\r\n", Bytes.ofString ":0\r\n"]] ∧
      history.deployment.server.appendFailures = 0 ∧
      history.deployment.server.log?.map Log.appended = some 1 := by
  decide +kernel

end History

end DurableStore
