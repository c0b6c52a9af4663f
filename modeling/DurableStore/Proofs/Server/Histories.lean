import DurableStore.Proofs.Log.Sessions
import DurableStore.Proofs.Server.Durability
import DurableStore.Proofs.Server.Serving

/-!
# Histories of a deployment

A history is a deployment in the course of a run, with what a client or an
operator could have noted down on the way: the requests in the order in which they
were answered, each with its reply and the octets it was taken from, and all octets
that have arrived on each connection.  What the requests did to the keyspace, to
the log and to their connections can then be read off the notes.

Main results:

- Definitions `History.step` and `History.run`: events, and what is noted down.
- Theorem `History.run_induction`: what every event but a restart preserves holds
  throughout.
- Definition `History.Intact` and theorem `History.intact_of_faultless`: runs in which the log
  is never half closed.
- Theorem `Server.takes`: how a turn of the handler of an open connection ends.
- Theorem `Deployment.session_step`: an event does to the log what the answered
  requests and the faults amount to.
- Theorems `History.Logged.run` and `History.Logged.log_eq`: the log holds the recorded
  requests, in order.
-/

namespace DurableStore

/-! ## Answered requests -/

/-- Whether a request is a write that its reply accepts. -/
def Exchange.isAccepted (exchange : Exchange) : Bool :=
  match Command.parse exchange.request with
  | .ok command => Server.isLogged command.name exchange.reply
  | .error _ => false

/-- An accepted write has a written form. -/
theorem Exchange.encodeFault_of_isAccepted {exchange : Exchange}
    (haccepted : exchange.isAccepted = true) : exchange.request.encodeFault? = none := by
  unfold isAccepted at haccepted
  split at haccepted
  · rename_i command hparse
    exact Command.encodeFault_of_parse hparse
  · cases haccepted

/-- Whether a server has a log that takes a value. -/
def Server.records (server : Server) (value : Value) : Bool :=
  server.log?.any fun log => (log.append value).1.isOk

/-- A request that has been answered. -/
structure Transaction where
  exchange : Exchange
  /-- The octets that the request was taken from. -/
  octets : Bytes
  /-- Whether the server had a log that took the request, if it was given to the log. -/
  recordable : Bool

namespace Transaction

/-- Whether the request is an accepted write that could be written to the log. -/
def isRecorded (transaction : Transaction) : Bool :=
  transaction.exchange.isAccepted && transaction.recordable

/-- The request with the octets it was taken from. -/
def record (transaction : Transaction) : Record :=
  ⟨transaction.exchange.request, transaction.octets⟩

/-- Whether the request is an accepted write that could not be written to the log. -/
def isMissed (transaction : Transaction) : Bool :=
  transaction.exchange.isAccepted && !transaction.recordable

/-- An accepted write is recorded or missed, and not both. -/
theorem length_accepted (transactions : List Transaction) :
    (transactions.filter isRecorded).length + (transactions.filter isMissed).length =
      ((transactions.map exchange).filter Exchange.isAccepted).length := by
  induction transactions with
  | nil => rfl
  | cons transaction transactions ih =>
      by_cases haccepted : transaction.exchange.isAccepted = true
      · by_cases hrecordable : transaction.recordable = true
        · simp [isRecorded, isMissed, haccepted, hrecordable] at ih ⊢
          omega
        · simp [isRecorded, isMissed, haccepted, hrecordable] at ih ⊢
          omega
      · simpa [List.filter_cons, isRecorded, isMissed, haccepted] using ih

/-- The requests on a connection. -/
def on (id : Nat) (transactions : List Transaction) : List Transaction :=
  transactions.filter fun transaction => transaction.exchange.id = id

end Transaction

namespace Deployment

/-- The request that an event answers, if there is one. -/
def answered (deployment : Deployment) : Event → List Transaction
  | .turn id =>
      match deployment.connections[id]? with
      | none => []
      | some connection =>
          let turn := deployment.server.turn connection
          match turn.activity with
          | .served request reply =>
              [{ exchange := ⟨id, request, reply⟩
                 octets := connection.stream.octets.take
                   (connection.stream.octets.length - turn.connection.stream.octets.length)
                 recordable := deployment.server.records request }]
          | .idle | .ended => []
  | _ => []

/-- The octets that an event brings to a connection, unless it has ended. -/
def arriving (deployment : Deployment) (id : Nat) : Event → Bytes
  | .deliver other octets =>
      if other = id ∧ deployment.connections[id]?.any Connection.isOpen then octets else []
  | _ => []

end Deployment

/-! ## Histories -/

/-- A deployment, and what has happened to it. -/
structure History where
  deployment : Deployment
  /-- The requests that have been answered, in order. -/
  transactions : List Transaction
  /-- All octets that have arrived on each connection before it ended. -/
  received : Nat → Bytes

namespace History

/-- The beginning of a history. -/
def start (server : Server) (volume : Volume) : History :=
  ⟨.ofServer server volume, [], fun _ => []⟩

/-- An event takes place. -/
def step (history : History) (event : Event) : History where
  deployment := (history.deployment.step event).deployment
  transactions := history.transactions ++ history.deployment.answered event
  received id := history.received id ++ history.deployment.arriving id event

/-- Events take place one after the other. -/
def run (history : History) (events : List Event) : History :=
  events.foldl step history

/-- The requests that have been answered, with their replies. -/
def exchanges (history : History) : List Exchange :=
  history.transactions.map Transaction.exchange

/-- The requests that have been answered, each with its connection. -/
def requests (history : History) : List (Nat × Value) :=
  history.exchanges.map fun exchange => (exchange.id, exchange.request)

/-- The accepted writes that could be written to the log, in order. -/
def recorded (history : History) : List Value :=
  (history.transactions.filter Transaction.isRecorded).map fun transaction =>
    transaction.exchange.request

/-- Later events go on from what the others have left. -/
theorem run_append (history : History) (events later : List Event) :
    history.run (events ++ later) = (history.run events).run later :=
  List.foldl_append

/-- What holds at first and is preserved by every event but a restart holds
throughout. -/
theorem run_induction {motive : History → Prop} {history : History} {events : List Event}
    (hevents : ∀ event ∈ events, event ≠ .restart) (hstart : motive history)
    (hstep : ∀ history event, event ≠ .restart → motive history → motive (history.step event)) :
    motive (history.run events) := by
  induction events generalizing history with
  | nil => exact hstart
  | cons event events ih =>
      obtain ⟨hfirst, hrest⟩ := List.forall_mem_cons.mp hevents
      exact ih hrest (hstep history event hfirst hstart)

/-! ## Runs in which the log is never half closed -/

/-- At no time is the log half closed. -/
def Intact (history : History) (events : List Event) : Prop :=
  ∀ before ∈ events.inits, (history.run before).deployment.server.logIsHalfClosed = false

instance (history : History) (events : List Event) : Decidable (history.Intact events) :=
  inferInstanceAs (Decidable (∀ before ∈ events.inits, _))

namespace Intact

variable {history : History} {event : Event} {events later : List Event}

/-- The log is not half closed at first, nor from the first event on. -/
theorem cons_iff : history.Intact (event :: events) ↔
    history.deployment.server.logIsHalfClosed = false ∧ (history.step event).Intact events := by
  simp [Intact, run]

/-- The log is not half closed at first. -/
theorem at_start (hintact : history.Intact events) :
    history.deployment.server.logIsHalfClosed = false :=
  hintact [] (List.mem_inits [] events |>.mpr List.nil_prefix)

/-- The log is not half closed in the end. -/
theorem at_end (hintact : history.Intact events) :
    (history.run events).deployment.server.logIsHalfClosed = false :=
  hintact events (List.mem_inits events events |>.mpr List.prefix_rfl)

/-- Nor is it in the first part of a run. -/
theorem left (hintact : history.Intact (events ++ later)) : history.Intact events := by
  intro before hbefore
  have hbegins := (List.mem_inits before events).mp hbefore
  exact hintact before ((List.mem_inits before _).mpr (hbegins.trans (List.prefix_append _ _)))

/-- Nor is it in the second part of a run. -/
theorem right (hintact : history.Intact (events ++ later)) : (history.run events).Intact later := by
  intro before hbefore
  have hbegins := (List.mem_inits before later).mp hbefore
  rw [← run_append]
  exact hintact _ ((List.mem_inits _ _).mpr ((List.prefix_append_right_inj events).mpr hbegins))

/-- What holds at first and is preserved by every event but a restart, as long as the log is not
half closed, holds throughout. -/
theorem induction {motive : History → Prop} (hintact : history.Intact events)
    (hevents : ∀ event ∈ events, event ≠ .restart) (hstart : motive history)
    (hstep : ∀ history event, event ≠ .restart →
      history.deployment.server.logIsHalfClosed = false →
      (history.step event).deployment.server.logIsHalfClosed = false →
      motive history → motive (history.step event)) :
    motive (history.run events) := by
  induction events generalizing history with
  | nil => exact hstart
  | cons event events ih =>
      obtain ⟨hfirst, hrest⟩ := List.forall_mem_cons.mp hevents
      obtain ⟨hwhole, hlater⟩ := cons_iff.mp hintact
      exact ih hlater hrest (hstep history event hfirst hwhole hlater.at_start hstart)

end Intact

end History

/-! ## Turns -/

namespace Connection

variable {limits : Limits} {connection : Connection} {left : Stream}

/-- Sending a reply does not touch the octets received. -/
theorem stream_reply (value : Value) (connection : Connection) :
    (connection.reply value).1.stream = connection.stream := by
  unfold reply
  split <;> rfl

/-- Without a last answer, a connection goes on exactly if its stream does. -/
theorem conclude_of_none (hopen : connection.isOpen = true)
    (hnone : lastReply? limits left.closed left.octets = none) :
    connection.conclude limits left [] =
      if left.closed then { connection with stream := left }.close
      else { connection with stream := left } := by
  unfold conclude
  rw [hnone]
  cases left.closed <;> simp [close, hopen]

/-- The last answer ends a connection, whether or not the client is still there. -/
theorem conclude_of_some {reason : String}
    (hsome : lastReply? limits left.closed left.octets = some (Reply.protocolError reason)) :
    connection.conclude limits left [] =
      ({ connection with stream := left }.dismiss reason).1 := by
  have hwritten := encodeFault_lastReply hsome
  unfold conclude dismiss reply write close
  rw [hsome]
  simp [Value.encode, hwritten]

end Connection

namespace Server

/-- How a turn of the handler of an open connection can end, and what it leads
to. -/
inductive Takes (server : Server) (connection : Connection) : Turn → Prop
  /-- The octets begin with a request, which is answered. -/
  | served {record : Record} {left : Stream} {notices : List Notice}
      (hholds : record.Holds server.limits)
      (hoctets : connection.stream.octets = record.octets ++ left.octets)
      (hsound : left.Sound server.limits) :
      Takes server connection
        ⟨.served record.value (server.process record.value).reply,
          (server.process record.value).server,
          ({ connection with stream := left }.reply (server.process record.value).reply).1,
          notices⟩
  /-- No request is found; the last answer is given if there is one. -/
  | rest {activity : Activity} {left : Stream} {notices : List Notice}
      (hactivity : activity = .idle ∨ activity = .ended)
      (hoctets : left.octets = connection.stream.octets) (hsound : left.Sound server.limits) :
      Takes server connection
        ⟨activity, server, connection.conclude server.limits left [], notices⟩

/-- A turn of the handler of an open connection answers the request with which the
octets begin. -/
theorem turn_of_holds {server : Server} {connection : Connection}
    (hwhole : server.logIsHalfClosed = false) (hopen : connection.isOpen = true)
    (hsound : connection.stream.Sound server.limits)
    {record : Record} {rest : Bytes} (hholds : record.Holds server.limits)
    (hoctets : connection.stream.octets = record.octets ++ rest) :
    ∃ left notices, left.octets = rest ∧ left.Sound server.limits ∧
      server.turn connection =
        ⟨.served record.value (server.process record.value).reply,
          (server.process record.value).server,
          ({ connection with stream := left }.reply (server.process record.value).reply).1,
          notices⟩ := by
  obtain ⟨left, hnext, hleft, -, hsafe⟩ := hsound.next (show 0 < Settings.readSize by decide)
  rw [hoctets, judge_record hholds] at hnext hleft
  unfold turn
  rw [if_neg (by simp [hopen]), hnext]
  simp only [Received.ofJudgement, Connection.respond_process hwhole]
  exact ⟨left, _, hleft, hsafe, rfl⟩

/-- A turn of the handler of an open connection answers a request, or gives the last
answer if there is one. -/
theorem takes {server : Server} {connection : Connection}
    (hwhole : server.logIsHalfClosed = false) (hopen : connection.isOpen = true)
    (hsound : connection.stream.Sound server.limits) :
    Takes server connection (server.turn connection) := by
  rcases judge_cases server.limits connection.stream.octets with
    ⟨record, rest, hholds, hoctets⟩ | hnone
  · obtain ⟨left, notices, rfl, hsafe, hturn⟩ := turn_of_holds hwhole hopen hsound hholds hoctets
    rw [hturn]
    exact .served hholds hoctets hsafe
  obtain ⟨left, hnext, hleft, hclosed, hsafe⟩ :=
    hsound.next (show 0 < Settings.readSize by decide)
  unfold turn
  rw [if_neg (by simp [hopen]), hnext]
  rcases hnone with ⟨error, hread, hshort⟩ | ⟨error, hobstacle⟩
  · have hnone := obstacle_eq_none hread hshort
    rw [judge_short hread hshort] at hleft ⊢
    by_cases hdue : connection.stream.closed = true ∧ connection.stream.octets ≠ []
    · -- The stream has ended inside a value.
      have hsome : lastReply? server.limits left.closed left.octets =
          some (Reply.protocolError
            (Received.cutOffMessage connection.stream.octets.length)) := by
        simp [lastReply?, lastWord?, hleft, hclosed, hnone, hdue]
      simp only [Received.ofJudgement, hdue, Bool.not_true, Bool.false_eq_true, if_false,
        List.isEmpty_iff]
      rw [← Connection.conclude_of_some hsome]
      exact .rest (.inr rfl) hleft hsafe
    · have hsilent : lastReply? server.limits left.closed left.octets = none := by
        simpa [lastReply?, lastWord?, hleft, hclosed, hnone] using hdue
      have hconclude := Connection.conclude_of_none hopen hsilent
      rw [hclosed] at hconclude
      cases hend : connection.stream.closed with
      | false =>
          rw [hend, if_neg Bool.false_ne_true] at hconclude
          simp only [Received.ofJudgement, Bool.not_false, if_true]
          rw [← hconclude]
          exact .rest (.inl rfl) hleft hsafe
      | true =>
          have hempty : connection.stream.octets = [] := by simpa [hend] using hdue
          rw [hend, if_pos rfl] at hconclude
          simp only [Received.ofJudgement, hempty, Bool.not_true, Bool.false_eq_true, if_false,
            List.isEmpty_nil, if_true]
          rw [← hconclude]
          exact .rest (.inr rfl) hleft hsafe
  · rw [judge_malformed hobstacle] at hleft ⊢
    have hsome : lastReply? server.limits left.closed left.octets =
        some (Reply.protocolError error.message) := by
      simp [lastReply?, lastWord?, hleft, hobstacle]
    simp only [Received.ofJudgement]
    rw [← Connection.conclude_of_some hsome]
    exact .rest (.inr rfl) hleft hsafe

/-- The handler of a connection that has ended finds nothing to do. -/
theorem turn_closed {server : Server} {connection : Connection}
    (hclosed : connection.isOpen = false) :
    server.turn connection = ⟨.idle, server, connection, []⟩ := by
  simp [turn, hclosed]

/-- A turn that answers a request leaves the server that answering leaves, and any
other turn leaves the server as it is. -/
theorem turn_server (server : Server) (connection : Connection) :
    (∃ request, (server.turn connection).activity = .served request (server.process request).reply ∧
      (server.turn connection).server = (server.process request).server) ∨
      ((server.turn connection).activity = .idle ∨ (server.turn connection).activity = .ended) ∧
        (server.turn connection).server = server := by
  unfold turn
  split
  · exact .inr ⟨.inl rfl, rfl⟩
  · split
    · exact .inl ⟨_, rfl, rfl⟩
    · exact .inr ⟨.inl rfl, rfl⟩
    all_goals exact .inr ⟨.inr rfl, rfl⟩

/-- Replies and keyspace depend on the keyspace, and not on the log or the
counters. -/
theorem process_congr {server other : Server} (hkeyspace : server.keyspace = other.keyspace)
    (request : Value) :
    (server.process request).reply = (other.process request).reply ∧
      (server.process request).server.keyspace = (other.process request).server.keyspace := by
  cases hparse : Command.parse request with
  | error error =>
      rw [process_of_parse_error hparse, process_of_parse_error hparse]
      exact ⟨rfl, hkeyspace⟩
  | ok command =>
      obtain ⟨hreply, hafter, -⟩ := process_of_parse_ok hparse server
      obtain ⟨hreply', hafter', -⟩ := process_of_parse_ok hparse other
      rw [hreply, hreply', hafter, hafter', hkeyspace]
      exact ⟨rfl, rfl⟩

end Server

/-! ## The log -/

section Log

variable {server : Server} {log : Log} {session : Session} {deployment : Deployment}
  {event : Event}

/-- A server records what has a written form if its log is open and no attempt to write is to
fail. -/
theorem Server.records_of_accepts (hlog : server.log? = some log) (haccepts : log.accepts = true)
    {value : Value} (hwritten : value.encodeFault? = none) : server.records value = true := by
  obtain ⟨handle, hhandle, hworks⟩ : ∃ handle, log.handle? = some handle ∧
      handle.works = true := by
    simpa [Log.accepts, Option.any_eq_true] using haccepts
  obtain ⟨later, happend, -⟩ := Log.append_ok hhandle hworks hwritten
  rw [Server.records, hlog, Option.any_some, happend]
  rfl

/-- What a request does to the log and to the count of failures: an accepted write is
given to the log, and counted if the log does not take it. -/
theorem Server.process_log (hlog : server.log? = some log)
    (hwhole : server.logIsHalfClosed = false) (volume : Volume) (id : Nat) (request : Value) :
    (Exchange.isAccepted ⟨id, request, (server.process request).reply⟩ = true ∧
        (server.process request).server.log? =
          some ((Session.mk log volume).step (.append (.value request))).2.log ∧
        (server.process request).server.appendFailures =
          server.appendFailures + (!server.records request).toNat) ∨
      (Exchange.isAccepted ⟨id, request, (server.process request).reply⟩ = false ∧
        (server.process request).server.log? = some log ∧
        (server.process request).server.appendFailures = server.appendFailures) := by
  cases hparse : Command.parse request with
  | error error =>
      rw [Server.process_of_parse_error hparse]
      exact .inr ⟨by simp only [Exchange.isAccepted, hparse], hlog, rfl⟩
  | ok command =>
      have hwritten := Command.encodeFault_of_parse hparse
      rw [Server.logIsHalfClosed, hlog, Option.any_some] at hwhole
      by_cases hlogged : Server.isLogged command.name
          (server.keyspace.dispatch command.name command.args).1 = true
      · have hreply := (Server.process_of_parse_ok hparse server).1
        refine .inl ⟨by simpa only [Exchange.isAccepted, hparse, hreply] using hlogged, ?_⟩
        simp only [Server.process, hparse, Server.perform, if_pos hlogged, Server.record,
          Server.records, hlog, Session.step, Submission.toValue, Option.any_some]
        rcases happend : log.append request with ⟨result, after⟩
        cases result with
        | ok count => exact ⟨rfl, rfl⟩
        | error error =>
            have hown : error.isOwn = true := Log.isOwn_append hwhole hwritten (by rw [happend])
            simp only [hown, if_true]
            exact ⟨trivial, rfl⟩
      · simp only [Server.process, hparse, Server.perform, if_neg hlogged, Exchange.isAccepted]
        exact .inr ⟨by simpa using hlogged, hlog, trivial⟩

/-- The deeds of a run are those that it was to consist of. -/
theorem Session.deeds_run (session : Session) (deeds : List Deed) :
    (session.run deeds).1.map Prod.fst = deeds := by
  induction deeds generalizing session with
  | nil => rfl
  | cons deed deeds ih => rw [Session.run, List.map_cons, ih]

/-- Giving something to a log does not touch its file. -/
theorem Session.volume_append (session : Session) (submission : Submission) :
    (session.step (.append submission)).2.volume = session.volume := by
  have happends := session.appends submission
  generalize session.step (.append submission) = outcome at happends
  cases happends <;> rfl

/-- A value that is given to a log is taken exactly if appending it does not fail. -/
theorem Session.taken_append (session : Session) (value : Value) :
    (session.run [.append (.value value)]).1.taken =
      if (session.log.append value).1.isOk then [value] else [] := by
  simp only [Session.run, Session.step, Submission.toValue, Doings.taken]
  rcases session.log.append value with ⟨result, after⟩
  cases result <;> rfl

namespace Deployment

/-- A turn answers nothing and leaves the server as it is, or it answers one request
and leaves the server that answering leaves. -/
theorem answered_turn (deployment : Deployment) (id : Nat) :
    (deployment.answered (.turn id) = [] ∧
        (deployment.turn id).deployment.server = deployment.server) ∨
      ∃ request octets, deployment.answered (.turn id) =
          [⟨⟨id, request, (deployment.server.process request).reply⟩, octets,
            deployment.server.records request⟩] ∧
        (deployment.turn id).deployment.server = (deployment.server.process request).server := by
  simp only [answered, turn]
  cases deployment.connections[id]? with
  | none => exact .inl ⟨rfl, rfl⟩
  | some connection =>
      rcases deployment.server.turn_server connection with
        ⟨request, hactivity, hserver⟩ | ⟨hactivity | hactivity, hserver⟩
      · simp only [hactivity]
        exact .inr ⟨request, _, rfl, hserver⟩
      all_goals
        simp only [hactivity]
        exact .inl ⟨trivial, hserver⟩

/-- A turn of the handler of an open connection answers the request with which its octets
begin. -/
theorem answered_of_holds {id : Nat} {connection : Connection}
    (hwhole : deployment.server.logIsHalfClosed = false)
    (hconnection : deployment.connections[id]? = some connection)
    (hopen : connection.isOpen = true) (hsound : connection.stream.Sound deployment.server.limits)
    {record : Record} {rest : Bytes} (hholds : record.Holds deployment.server.limits)
    (hoctets : connection.stream.octets = record.octets ++ rest) :
    ∃ left : Stream, left.octets = rest ∧ left.Sound deployment.server.limits ∧
      deployment.answered (.turn id) =
        [⟨⟨id, record.value, (deployment.server.process record.value).reply⟩, record.octets,
          deployment.server.records record.value⟩] ∧
      (deployment.turn id).deployment.connections = deployment.connections.set id
        ({ connection with stream := left }.reply
          (deployment.server.process record.value).reply).1 ∧
      (deployment.turn id).deployment.server = (deployment.server.process record.value).server := by
  obtain ⟨left, notices, hleft, hsafe, hturn⟩ :=
    Server.turn_of_holds hwhole hopen hsound hholds hoctets
  refine ⟨left, hleft, hsafe, ?_, ?_, ?_⟩
  · have htaken : connection.stream.octets.take
        (connection.stream.octets.length - left.octets.length) = record.octets := by
      rw [hoctets, hleft, List.length_append, Nat.add_sub_cancel, List.take_left]
    simp only [answered, hconnection, hturn, Connection.stream_reply, htaken]
  · simp only [turn, hconnection, hturn, Outcome.quiet]
  · simp only [turn, hconnection, hturn, Outcome.quiet]

/-- A turn of the handler of an open connection answers a request of its octets, or
concerns the connection alone. -/
theorem answered_takes {id : Nat} {connection : Connection}
    (hwhole : deployment.server.logIsHalfClosed = false)
    (hconnection : deployment.connections[id]? = some connection)
    (hopen : connection.isOpen = true) (hsound : connection.stream.Sound deployment.server.limits) :
    (∃ transaction : Transaction, ∃ left : Stream,
        transaction.record.Holds deployment.server.limits ∧
        left.Sound deployment.server.limits ∧
        connection.stream.octets = transaction.octets ++ left.octets ∧
        transaction.exchange.id = id ∧ deployment.answered (.turn id) = [transaction] ∧
        (deployment.turn id).deployment.connections = deployment.connections.set id
          ({ connection with stream := left }.reply transaction.exchange.reply).1) ∨
      ∃ left : Stream, left.Sound deployment.server.limits ∧
        left.octets = connection.stream.octets ∧ deployment.answered (.turn id) = [] ∧
        (deployment.turn id).deployment.connections = deployment.connections.set id
          (connection.conclude deployment.server.limits left []) := by
  have htakes := Server.takes hwhole hopen hsound
  generalize htaken : deployment.server.turn connection = taken at htakes
  cases htakes with
  | @served record left notices hholds hoctets _ =>
      obtain ⟨left', hleft, hsafe, hanswered, hset, -⟩ :=
        deployment.answered_of_holds hwhole hconnection hopen hsound hholds hoctets
      exact .inl ⟨⟨⟨id, record.value, _⟩, record.octets, _⟩, left', hholds, hsafe,
        by rw [hleft, hoctets], rfl, hanswered, hset⟩
  | @rest activity left notices hactivity hoctets hsafe =>
      refine .inr ⟨left, hsafe, hoctets, ?_, ?_⟩
      · simp only [answered, hconnection, htaken]
        rcases hactivity with rfl | rfl <;> rfl
      · simp only [turn, hconnection, htaken, Outcome.quiet]

/-- A request is answered in a turn of the handler of its connection, by the server
of the deployment. -/
theorem mem_answered {transaction : Transaction}
    (htransaction : transaction ∈ deployment.answered event) :
    event = .turn transaction.exchange.id ∧
      transaction.exchange.id < deployment.connections.length ∧
      transaction.exchange.reply =
        (deployment.server.process transaction.exchange.request).reply ∧
      transaction.recordable = deployment.server.records transaction.exchange.request := by
  cases event with
  | turn id =>
      rcases deployment.answered_turn id with ⟨hnothing, -⟩ | ⟨request, octets, hanswered, -⟩
      · rw [hnothing] at htransaction
        cases htransaction
      · have hexists : id < deployment.connections.length := by
          by_contra hnot
          rw [answered, List.getElem?_eq_none (Nat.not_lt.mp hnot)] at hanswered
          cases hanswered
        rw [hanswered] at htransaction
        obtain rfl := List.mem_singleton.mp htransaction
        exact ⟨rfl, hexists, rfl, rfl⟩
  | _ => cases htransaction

/-- Nothing is answered but in turns. -/
theorem answered_eq_nil (hturn : ∀ id, event ≠ .turn id) : deployment.answered event = [] :=
  List.eq_nil_iff_forall_not_mem.mpr fun _ htransaction => hturn _ (mem_answered htransaction).1

/-- A turn does not touch the file of the log. -/
theorem volume_turn (deployment : Deployment) (id : Nat) :
    (deployment.turn id).deployment.volume = deployment.volume := by
  unfold turn
  split <;> rfl

/-- The log of a deployment with its file, unless the server runs without one. -/
def session? (deployment : Deployment) : Option Session :=
  deployment.server.log?.map fun log => ⟨log, deployment.volume⟩

/-- What an event does to the log. -/
def deeds (deployment : Deployment) : Event → List Deed
  | .turn id =>
      ((deployment.answered (.turn id)).filter fun transaction =>
        transaction.exchange.isAccepted).map fun transaction =>
          .append (.value transaction.exchange.request)
  | .flush => [.tick]
  | .closeLog => [.close]
  | .obstruct faults => [.obstruct faults]
  | .setSyncFails fails => [.setSyncFails fails]
  | _ => []

/-- A turn gives an accepted write to the log, and does nothing else to it. -/
theorem session_turn (hsession : deployment.session? = some session)
    (hwhole : deployment.server.logIsHalfClosed = false) (id : Nat) :
    (deployment.turn id).deployment.session? =
        some (session.run (deployment.deeds (.turn id))).2 ∧
      (session.run (deployment.deeds (.turn id))).1.taken =
        ((deployment.answered (.turn id)).filter Transaction.isRecorded).map
          (fun transaction => transaction.exchange.request) ∧
      (deployment.turn id).deployment.server.appendFailures =
        deployment.server.appendFailures +
          ((deployment.answered (.turn id)).filter Transaction.isMissed).length := by
  obtain ⟨log, hlog, rfl⟩ := Option.map_eq_some_iff.mp hsession
  have hvolume := deployment.volume_turn id
  rcases deployment.answered_turn id with
    ⟨hnothing, hserver⟩ | ⟨request, octets, hanswered, hserver⟩
  · simp only [session?, deeds, hnothing, hserver, hlog, hvolume]
    exact ⟨rfl, rfl, rfl⟩
  · simp only [session?, deeds, hanswered, hserver, hvolume]
    have hrecords : deployment.server.records request = (log.append request).1.isOk := by
      rw [Server.records, hlog, Option.any_some]
    rcases deployment.server.process_log hlog hwhole deployment.volume id request with
      ⟨haccepted, hafter, hcount⟩ | ⟨haccepted, hafter, hcount⟩
    · have hsame := Session.volume_append ⟨log, deployment.volume⟩ (.value request)
      have htaken := Session.taken_append ⟨log, deployment.volume⟩ request
      have hdeeds : [(⟨⟨id, request, (deployment.server.process request).reply⟩, octets,
          deployment.server.records request⟩ : Transaction)].filter
            (fun transaction => transaction.exchange.isAccepted) =
            [⟨⟨id, request, (deployment.server.process request).reply⟩, octets,
              deployment.server.records request⟩] :=
        List.filter_cons_of_pos haccepted
      rw [hdeeds, List.map_singleton, htaken, hafter, hcount]
      refine ⟨?_, ?_, ?_⟩
      · exact congrArg (fun volume => some (Session.mk _ volume)) hsame.symm
      · rw [← hrecords]
        cases htakes : deployment.server.records request <;>
          simp [Transaction.isRecorded, haccepted]
      · cases htakes : deployment.server.records request <;>
          simp [Transaction.isMissed, haccepted]
    · simp [haccepted, hafter, hcount, Session.run, Doings.taken, Transaction.isRecorded,
        Transaction.isMissed]

/-- If the log is not half closed after an event, then it has not been closed halfway. -/
theorem closedWhole_deeds (hsession : deployment.session? = some session)
    (hafter : (deployment.step event).deployment.server.logIsHalfClosed = false) :
    (session.run (deployment.deeds event)).1.ClosedWhole := by
  intro reason hmem
  have hclose : Deed.close ∈ deployment.deeds event := by
    rw [← session.deeds_run (deployment.deeds event)]
    exact List.mem_map_of_mem hmem
  cases event with
  | closeLog =>
      obtain ⟨log, hlog, rfl⟩ := Option.map_eq_some_iff.mp hsession
      have hresult : (log.close deployment.volume).result = .error (.cannotClose reason) := by
        rcases List.mem_singleton.mp hmem with hsame
        have hstep := (Prod.mk.inj hsame).2
        simp only [Session.step] at hstep
        cases hend : (log.close deployment.volume).result with
        | ok done => simp [hend, Except.mapError] at hstep
        | error error =>
            simp only [hend, Except.mapError, Except.error.injEq, DeedError.sync.injEq] at hstep
            rw [hstep]
      have hhalf := (log.close_halfway deployment.volume).mpr ⟨reason, hresult⟩
      simp [step, closeLog, actOnLog, hlog, Server.logIsHalfClosed, hhalf] at hafter
  | turn id => simp [deeds] at hclose
  | _ => simp [deeds] at hclose

/-- Every event but a restart gives the accepted writes it answers to the log, and
counts those that the log does not take. -/
theorem session_step (hsession : deployment.session? = some session)
    (hwhole : deployment.server.logIsHalfClosed = false) (hevent : event ≠ .restart) :
    (deployment.step event).deployment.session? =
        some (session.run (deployment.deeds event)).2 ∧
      (session.run (deployment.deeds event)).1.taken =
        ((deployment.answered event).filter Transaction.isRecorded).map
          (fun transaction => transaction.exchange.request) ∧
      (deployment.step event).deployment.server.appendFailures =
        deployment.server.appendFailures +
          ((deployment.answered event).filter Transaction.isMissed).length := by
  have hact := Option.map_eq_some_iff.mp hsession
  cases event with
  | start =>
      simp only [step, start]
      split <;> exact ⟨hsession, rfl, rfl⟩
  | crash id reason =>
      simp only [step, crash]
      split <;> exact ⟨hsession, rfl, rfl⟩
  | stop => exact ⟨hsession, rfl, rfl⟩
  | connect peer => exact ⟨hsession, rfl, rfl⟩
  | deliver id octets => exact ⟨hsession, rfl, rfl⟩
  | finish id => exact ⟨hsession, rfl, rfl⟩
  | reset id => exact ⟨hsession, rfl, rfl⟩
  | breakDrain id => exact ⟨hsession, rfl, rfl⟩
  | turn id => exact session_turn hsession hwhole id
  | flush =>
      obtain ⟨log, hlog, rfl⟩ := hact
      simp only [step, flush, actOnLog, hlog]
      exact ⟨rfl, rfl, rfl⟩
  | closeLog =>
      obtain ⟨log, hlog, rfl⟩ := hact
      simp only [step, closeLog, actOnLog, hlog]
      exact ⟨rfl, rfl, rfl⟩
  | restart => exact absurd rfl hevent
  | obstruct faults =>
      obtain ⟨log, hlog, rfl⟩ := hact
      simp only [step, session?, obstruct, Outcome.quiet, hlog]
      exact ⟨rfl, rfl, rfl⟩
  | setSyncFails fails =>
      obtain ⟨log, hlog, rfl⟩ := hact
      simp only [step, session?, setSyncFails, Outcome.quiet, hlog]
      exact ⟨rfl, rfl, rfl⟩

/-- A server whose log is not half closed. -/
theorem whole_of_session (hsession : deployment.session? = some session)
    (hwhole : session.log.isHalfClosed = false) :
    deployment.server.logIsHalfClosed = false := by
  obtain ⟨log, hlog, rfl⟩ := Option.map_eq_some_iff.mp hsession
  rw [Server.logIsHalfClosed, hlog, Option.any_some, hwhole]

/-- As long as nothing is to obstruct writing, no attempt to write is to fail, and the log does
not become half closed. -/
theorem session_faultless (hsession : deployment.session? = some session)
    (hfaultless : session.log.faultless = true) (hwhole : session.log.isHalfClosed = false)
    (hevent : event ≠ .restart) (hfaults : ∀ faults, event = .obstruct faults → true ∉ faults) :
    ∃ next, (deployment.step event).deployment.session? = some next ∧
      next.log.faultless = true ∧ next.log.isHalfClosed = false := by
  obtain ⟨hnext, -⟩ := session_step hsession (whole_of_session hsession hwhole) hevent
  refine ⟨_, hnext, Session.run_faultless hfaultless hwhole fun deed hdeed faults hsame => ?_⟩
  subst hsame
  refine hfaults faults ?_
  cases event with
  | obstruct others =>
      have hsame : Deed.obstruct faults = .obstruct others := List.mem_singleton.mp hdeed
      rw [Deed.obstruct.inj hsame]
  | turn id => simp [deeds] at hdeed
  | _ => simp [deeds] at hdeed

end Deployment

namespace History

/-- The requests that are recorded at an event come behind those recorded before. -/
theorem recorded_step (history : History) (event : Event) :
    (history.step event).recorded = history.recorded ++
      ((history.deployment.answered event).filter Transaction.isRecorded).map
        fun transaction => transaction.exchange.request := by
  simp only [recorded, step, List.filter_append, List.map_append]

/-- As long as no attempt to write to the log is to fail, it is never half closed. -/
theorem intact_of_faultless {history : History} {events : List Event}
    (hsession : history.deployment.session? = some session)
    (hfaultless : session.log.faultless = true) (hwhole : session.log.isHalfClosed = false)
    (hevents : ∀ event ∈ events,
      event ≠ .restart ∧ ∀ faults, event = .obstruct faults → true ∉ faults) :
    history.Intact events := by
  induction events generalizing history session with
  | nil =>
      intro before hbefore
      rw [List.mem_singleton.mp hbefore]
      exact Deployment.whole_of_session hsession hwhole
  | cons event events ih =>
      obtain ⟨⟨hevent, hfaults⟩, hrest⟩ := List.forall_mem_cons.mp hevents
      obtain ⟨next, hnext, hfree, hstill⟩ :=
        Deployment.session_faultless hsession hfaultless hwhole hevent hfaults
      exact Intact.cons_iff.mpr
        ⟨Deployment.whole_of_session hsession hwhole, ih hnext hfree hstill hrest⟩

/-- The log lives through a session that takes the recorded requests and does not close it
halfway, and every accepted write is recorded or counted as a failure. -/
structure Logged (session : Session) (failures : Nat) (history : History) : Prop where
  session_eq : ∃ deeds, history.deployment.session? = some (session.run deeds).2 ∧
    (session.run deeds).1.taken = history.recorded ∧ (session.run deeds).1.ClosedWhole
  count_eq : history.deployment.server.appendFailures + history.recorded.length =
    failures + (history.exchanges.filter Exchange.isAccepted).length

namespace Logged

variable {failures : Nat} {history : History}

/-- Nothing has been recorded at first. -/
theorem start {server : Server} (hlog : server.log? = some log) (volume : Volume) :
    Logged ⟨log, volume⟩ server.appendFailures (.start server volume) where
  session_eq := by
    refine ⟨[], ?_, rfl, fun _ => List.not_mem_nil⟩
    simp [History.start, Deployment.session?, Deployment.ofServer, hlog, Session.run]
  count_eq := rfl

/-- Every event but a restart keeps account of what is recorded, unless the log is half
closed. -/
theorem step (hlogged : history.Logged session failures)
    (hwhole : history.deployment.server.logIsHalfClosed = false)
    (hafter : (history.step event).deployment.server.logIsHalfClosed = false)
    (hevent : event ≠ .restart) : (history.step event).Logged session failures := by
  obtain ⟨⟨deeds, hsession, htaken, hclosed⟩, hcount⟩ := hlogged
  obtain ⟨hnext, hmore, hfailures⟩ := Deployment.session_step hsession hwhole hevent
  have hlater := Deployment.closedWhole_deeds hsession hafter
  refine ⟨⟨deeds ++ history.deployment.deeds event, ?_, ?_, ?_⟩, ?_⟩
  · rw [Session.run_append]
    exact hnext
  · rw [Session.taken_run_append, htaken, hmore, recorded_step]
  · rw [Session.run_append]
    intro reason hmem
    exact (List.mem_append.mp hmem).elim (hclosed reason) (hlater reason)
  · have hsplit := Transaction.length_accepted (history.deployment.answered event)
    have hexchanges : ((history.step event).exchanges.filter Exchange.isAccepted).length =
        (history.exchanges.filter Exchange.isAccepted).length +
          (((history.deployment.answered event).map Transaction.exchange).filter
            Exchange.isAccepted).length := by
      simp only [exchanges, History.step, List.map_append, List.filter_append, List.length_append]
    rw [recorded_step, List.length_append, List.length_map, hexchanges, History.step, hfailures]
    omega

/-- The log holds the recorded requests behind what it held before, and has counted
them. -/
theorem log_eq {volume : Volume} (hlogged : history.Logged ⟨log, volume⟩ failures) :
    ∃ current, history.deployment.server.log? = some current ∧
      current.appended = log.appended + history.recorded.length ∧
      ∀ content, volume.place = .file content →
        current.written history.deployment.volume =
          log.written volume ++ history.recorded.flatMap Value.wire := by
  obtain ⟨deeds, hsession, htaken, hclosed⟩ := hlogged.session_eq
  obtain ⟨current, hcurrent, hpair⟩ := Option.map_eq_some_iff.mp hsession
  refine ⟨current, hcurrent, ?_, fun content hplace => ?_⟩
  · have hcount := Session.appended_run ⟨log, volume⟩ deeds
    rwa [← hpair, htaken] at hcount
  · have hholds : (Session.mk log volume).Holds content log.pieces [] :=
      ⟨⟨[], by simpa using hplace, by simp⟩, fun hlost => absurd rfl hlost⟩
    obtain ⟨lost, ⟨⟨moved, hfile, hgiven⟩, -⟩, hnone⟩ := hholds.run deeds
    rw [hnone hclosed, List.append_nil, ← hpair, htaken] at hgiven
    rw [← hpair] at hfile
    have hflat := congrArg List.flatten hgiven
    rw [List.flatten_append, List.flatten_append, Log.flatten_pieces, Log.flatten_pieces,
      ← List.flatMap_def] at hflat
    dsimp only at hfile hflat
    rw [Log.written_of_place hfile, Log.written_of_place hplace, List.append_assoc,
      List.append_assoc, hflat]

/-- Recorded requests have a written form. -/
theorem encode_eq (hlogged : history.Logged session failures) :
    ∀ request ∈ history.recorded, request.encode = .ok request.wire := by
  obtain ⟨deeds, -, htaken, -⟩ := hlogged.session_eq
  intro request hrequest
  rw [← htaken] at hrequest
  rw [Value.encode, Session.encodeFault_of_mem_taken hrequest]

/-- Account is kept throughout. -/
theorem run {server : Server} (hlog : server.log? = some log) (volume : Volume)
    {events : List Event} (hevents : ∀ event ∈ events, event ≠ .restart)
    (hintact : (History.start server volume).Intact events) :
    ((History.start server volume).run events).Logged ⟨log, volume⟩ server.appendFailures :=
  hintact.induction hevents (start hlog volume) fun _ _ hevent hwhole hafter hlogged =>
    hlogged.step hwhole hafter hevent

end Logged

end History

end Log

end DurableStore
