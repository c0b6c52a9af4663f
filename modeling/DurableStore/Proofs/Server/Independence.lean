import DurableStore.Proofs.Log.Recovery
import DurableStore.Proofs.Server.Isolation
import DurableStore.Proofs.Server.Traffic
import Mathlib.Data.List.TakeWhile

/-!
# Clients on different keys

Clients that use different keys do not notice each other.  What a client gets depends only
on what it has sent, if nobody else writes a key that it reads, and neither the order nor
the pieces in which octets arrive matter.  If no two clients name the same key, then the
keyspace and what can be rebuilt from the log do not depend on the order either, although
the log itself does.

Main results:

- Definition `Inbox.script`: what is sent to a client that is alone.
- Theorem `History.Underway.output_eq`: what is sent to a client that is not disturbed.
- Theorem `History.Underway.exchanges_eq`: what has been asked and answered on a settled
  connection.
- Theorem `History.Recording.run` and `History.restart_rebuilds`: what a restart rebuilds.
- Structure `Independent` and theorem `History.run_independent`: clients on different keys
  do not interfere.
-/

namespace DurableStore

/-! ## What a client gets -/

namespace Inbox

/-- What is sent on a connection whose client is alone: the replies up to the first one
without a written form, and the last answer if all have one. -/
def script (server : Server) (inbox : Inbox) : List Bytes :=
  let replies := server.replies (inbox.values server.limits)
  (replies.takeWhile Value.isWritten ++
    if replies.all Value.isWritten then (inbox.lastReply? server.limits).toList
    else []).map Value.wire

/-- The requests that are answered to a client that is alone: those up to the first one
whose reply has no written form. -/
def asked (server : Server) (inbox : Inbox) : List Value :=
  let replies := server.replies (inbox.values server.limits)
  (inbox.values server.limits).take ((replies.takeWhile Value.isWritten).length + 1)

/-- The keys that the requests that have arrived read. -/
def readKeys (limits : Limits) (inbox : Inbox) : List Bytes :=
  (inbox.values limits).flatMap Value.readKeys

/-- The keys that the requests that have arrived set or remove. -/
def writtenKeys (limits : Limits) (inbox : Inbox) : List Bytes :=
  (inbox.values limits).flatMap Value.writtenKeys

/-- Nobody else writes a key that the client of a connection reads. -/
def Undisturbed (limits : Limits) (inboxes : Nat → Inbox) (id : Nat) : Prop :=
  ∀ other, other ≠ id →
    ∀ key ∈ (inboxes other).writtenKeys limits, key ∉ (inboxes id).readKeys limits

/-- No key is named on two connections. -/
def Separate (limits : Limits) (inboxes : Nat → Inbox) : Prop :=
  ∀ id other, id ≠ other →
    ∀ key ∈ (inboxes id).readKeys limits ++ (inboxes id).writtenKeys limits,
      key ∉ (inboxes other).readKeys limits ++ (inboxes other).writtenKeys limits

/-- Clients that name different keys do not disturb each other. -/
theorem Separate.undisturbed {limits : Limits} {inboxes : Nat → Inbox}
    (hseparate : Separate limits inboxes) (id : Nat) : Undisturbed limits inboxes id := by
  intro other hother key hwritten hread
  exact hseparate other id hother key (List.mem_append_right _ hwritten)
    (List.mem_append_left _ hread)

end Inbox

/-- There are as many replies as requests. -/
theorem Server.length_replies (server : Server) (requests : List Value) :
    (server.replies requests).length = requests.length := by
  induction requests generalizing server with
  | nil => rfl
  | cons request requests ih => simp [replies, ih]

/-- The first requests get the replies that they would get without the others. -/
theorem Server.replies_append (server : Server) (requests later : List Value) :
    ∃ more, server.replies (requests ++ later) = server.replies requests ++ more := by
  induction requests generalizing server with
  | nil => exact ⟨_, rfl⟩
  | cons request requests ih =>
      obtain ⟨more, hmore⟩ := ih (server.process request).server
      exact ⟨more, by rw [List.cons_append, replies, hmore]; rfl⟩

/-- The first records that have arrived hold the first values, which get the first
replies. -/
theorem Inbox.replies_values {inbox : Inbox} {records : List Record} {rest : Bytes}
    (server : Server) (hholds : ∀ record ∈ records, record.Holds server.limits)
    (hoctets : inbox.octets = Record.joined records ++ rest) :
    (∃ later, inbox.values server.limits = records.map Record.value ++ later) ∧
      ∃ more, server.replies (inbox.values server.limits) =
        server.replies (records.map Record.value) ++ more := by
  obtain ⟨later, tail, hsplits⟩ := exists_splits server.limits rest
  have hall := hsplits.prepend hholds
  rw [← hoctets] at hall
  rw [values_eq hall, List.map_append]
  exact ⟨⟨_, rfl⟩, server.replies_append _ _⟩

namespace Connection.Stage

variable {server : Server} {inbox : Inbox} {requests : List Value} {connection : Connection}

/-- What has been sent to a client that gets the replies it would get alone begins what it
would get in the end. -/
theorem sent_prefix
    (hstage : connection.Stage server.limits inbox requests (server.replies requests)) :
    connection.sent.reverse <+: inbox.script server := by
  cases hstage with
  | going _ _ hholds hoctets hrequests hwritten hsent =>
      obtain ⟨-, more, hmore⟩ := Inbox.replies_values server hholds hoctets
      rw [← hrequests] at hmore
      rw [hsent, Inbox.script, hmore, List.takeWhile_append_of_pos hwritten, List.append_assoc,
        List.map_append]
      exact List.prefix_append _ _
  | gaveUp _ hholds hoctets hrequests hreplies hwritten hlast hsent =>
      obtain ⟨-, more, hmore⟩ := Inbox.replies_values server hholds hoctets
      rw [← hrequests, hreplies, List.append_assoc] at hmore
      rw [hsent, Inbox.script, hmore, List.takeWhile_append_of_pos hwritten, List.append_assoc,
        List.map_append]
      exact List.prefix_append _ _
  | concluded _ hrequests hwritten _ hsent =>
      have hall : (server.replies requests).all Value.isWritten = true :=
        List.all_eq_true.mpr hwritten
      rw [hsent, Inbox.script, ← hrequests, hall, List.takeWhile_eq_self_iff.mpr hwritten]
      exact List.prefix_rfl

/-- On a settled connection all has been sent, and all requests have been answered that
will be. -/
theorem settled
    (hstage : connection.Stage server.limits inbox requests (server.replies requests))
    (hsound : connection.stream.Sound server.limits)
    (hsettled : connection.Settled server.limits) :
    connection.sent.reverse = inbox.script server ∧ requests = inbox.asked server := by
  have hlength := server.length_replies requests
  cases hstage with
  | @going records hopen hclosed hholds hoctets hrequests hwritten hsent =>
      obtain ⟨hsplits, hnone, -⟩ := hsettled.waits hopen hsound
      have hdivision := hsplits.prepend hholds
      rw [List.append_nil, ← hoctets] at hdivision
      have hlast : inbox.lastReply? server.limits = none := by
        rw [Inbox.lastReply?, Inbox.rest_eq hdivision, ← hclosed, hnone]
      have hvalues := (Inbox.values_eq hdivision).trans hrequests.symm
      rw [Inbox.script, Inbox.asked, hvalues, List.takeWhile_eq_self_iff.mpr hwritten, hlast, hsent,
        hlength]
      simp
  | @gaveUp _ _ earlier _ _ hholds hoctets hrequests hreplies hwritten hlast hsent =>
      obtain ⟨⟨later, hvalues⟩, more, hmore⟩ := Inbox.replies_values server hholds hoctets
      rw [← hrequests] at hvalues
      rw [← hrequests, hreplies, List.append_assoc] at hmore
      have hgiven : (server.replies (inbox.values server.limits)).takeWhile Value.isWritten =
          earlier := by
        rw [hmore, List.takeWhile_append_of_pos hwritten]
        simp [hlast]
      have hnot : (server.replies (inbox.values server.limits)).all Value.isWritten = false := by
        rw [hmore]
        simp [hlast]
      rw [hreplies, List.length_append, List.length_singleton] at hlength
      rw [Inbox.script, Inbox.asked, hgiven, hnot, hsent, hvalues]
      refine ⟨by simp, ?_⟩
      rw [hlength, List.take_left]
  | concluded _ hrequests hwritten _ hsent =>
      have hall : (server.replies requests).all Value.isWritten = true :=
        List.all_eq_true.mpr hwritten
      rw [Inbox.script, Inbox.asked, ← hrequests, hall, List.takeWhile_eq_self_iff.mpr hwritten,
        hsent, hlength]
      simp

end Connection.Stage

/-! ## Clients that are not disturbed -/

/-- What is exchanged on a connection is determined by its requests and their replies. -/
theorem Exchange.on_ext {exchanges others : List Exchange} {id : Nat}
    (hrequests : (on id exchanges).map request = (on id others).map request)
    (hreplies : (on id exchanges).map reply = (on id others).map reply) :
    on id exchanges = on id others := by
  have hmember : ∀ list : List Exchange, on id list =
      ((on id list).map request).zipWith (fun request reply => ⟨id, request, reply⟩)
        ((on id list).map reply) := by
    intro list
    rw [List.zipWith_map, List.zipWith_self]
    refine ((List.map_congr_left fun exchange hexchange => ?_).trans (List.map_id _)).symm
    rw [← (mem_on.mp hexchange).2]
    rfl
  rw [hmember exchanges, hmember others, hrequests, hreplies]

namespace History

variable {server : Server} {history : History} {events : List Event}

namespace Underway

/-- A request that has been answered has arrived. -/
theorem arrived (hunderway : history.Underway server events) {exchange : Exchange}
    (hexchange : exchange ∈ history.exchanges) :
    exchange.request ∈ (Inbox.ofEvents exchange.id events).values server.limits := by
  apply (hunderway.requests_prefix exchange.id).subset
  exact List.mem_map_of_mem (Exchange.mem_on.mpr ⟨hexchange, rfl⟩)

/-- If nobody else writes a key that a client reads, the client gets the replies that it
would get alone. -/
theorem replies_eq (hunderway : history.Underway server events) {id : Nat}
    (hundisturbed : Inbox.Undisturbed server.limits (Inbox.ofEvents · events) id) :
    (Exchange.on id history.exchanges).map Exchange.reply =
      server.replies ((Exchange.on id history.exchanges).map Exchange.request) := by
  have hfilter : (history.requests.filter fun request => request.1 = id).map Prod.snd =
      (Exchange.on id history.exchanges).map Exchange.request := by
    rw [requests, List.filter_map, List.map_map]
    rfl
  have hasked : ∀ request ∈ history.requests,
      request.2 ∈ (Inbox.ofEvents request.1 events).values server.limits := by
    intro request hrequest
    obtain ⟨exchange, hexchange, rfl⟩ := List.mem_map.mp hrequest
    exact hunderway.arrived hexchange
  have happart : (Exchange.on id (server.answerAll history.requests).1).map Exchange.reply =
      server.replies ((history.requests.filter fun request => request.1 = id).map Prod.snd) := by
    apply Server.replies_apart
      (fun key (_ : key ∈ (Inbox.ofEvents id events).readKeys server.limits) => rfl)
    · rintro request hrequest rfl key hread
      exact List.mem_flatMap.mpr ⟨request.2, hasked request hrequest, hread⟩
    · intro request hrequest hother key hwritten
      apply hundisturbed request.1 hother key
      exact List.mem_flatMap.mpr ⟨request.2, hasked request hrequest, hwritten⟩
  rw [hfilter, ← hunderway.answers.exchanges_eq] at happart
  exact happart

/-- What has been sent to a client that nobody disturbs is what it would get alone, or the
beginning of it. -/
theorem output_eq (hunderway : history.Underway server events) {id : Nat}
    (hundisturbed : Inbox.Undisturbed server.limits (Inbox.ofEvents · events) id)
    {connection : Connection}
    (hconnection : history.deployment.connections[id]? = some connection) :
    connection.sent.reverse <+: (Inbox.ofEvents id events).script server ∧
      (connection.Settled server.limits →
        connection.sent.reverse = (Inbox.ofEvents id events).script server ∧
          (Exchange.on id history.exchanges).map Exchange.request =
            (Inbox.ofEvents id events).asked server) := by
  have hstage := hunderway.stage id connection hconnection
  rw [hunderway.replies_eq hundisturbed] at hstage
  exact ⟨hstage.sent_prefix, hstage.settled (hunderway.sound id connection hconnection)⟩

end Underway

/-- If no key is named on two connections, what has been exchanged on settled connections
does not depend on the order in which octets have arrived on different connections. -/
theorem Underway.exchanges_eq {other : History} {later : List Event}
    (hunderway : history.Underway server events) (hother : other.Underway server later)
    (hinboxes : ∀ id, Inbox.ofEvents id later = Inbox.ofEvents id events)
    (hseparate : Inbox.Separate server.limits (Inbox.ofEvents · events))
    (hlength : other.deployment.connections.length = history.deployment.connections.length)
    (hsettled : ∀ connection ∈ history.deployment.connections, connection.Settled server.limits)
    (hotherSettled : ∀ connection ∈ other.deployment.connections,
      connection.Settled server.limits) (id : Nat) :
    Exchange.on id history.exchanges = Exchange.on id other.exchanges := by
  have hsame : Inbox.Undisturbed server.limits (Inbox.ofEvents · later) id := by
    simp only [Inbox.Undisturbed, hinboxes]
    exact hseparate.undisturbed id
  by_cases hid : id < history.deployment.connections.length
  · have hconnection := List.getElem?_eq_getElem hid
    have hotherConnection := List.getElem?_eq_getElem (hlength.symm ▸ hid)
    obtain ⟨-, hasked⟩ := (hunderway.output_eq (hseparate.undisturbed id) hconnection).2
      (hsettled _ (List.getElem_mem hid))
    obtain ⟨-, hotherAsked⟩ := (hother.output_eq hsame hotherConnection).2
      (hotherSettled _ (List.getElem_mem _))
    have hrequests : (Exchange.on id history.exchanges).map Exchange.request =
        (Exchange.on id other.exchanges).map Exchange.request := by
      rw [hasked, hotherAsked, hinboxes]
    apply Exchange.on_ext hrequests
    rw [hunderway.replies_eq (hseparate.undisturbed id), hother.replies_eq hsame, hrequests]
  · rw [hunderway.absent id (Nat.not_lt.mp hid), hother.absent id (hlength ▸ Nat.not_lt.mp hid)]

/-- Requests that have been answered on different connections write different keys. -/
theorem Underway.writes_apart (hunderway : history.Underway server events)
    (hseparate : Inbox.Separate server.limits (Inbox.ofEvents · events)) {key : Bytes} :
    ∀ exchange ∈ history.exchanges, ∀ other ∈ history.exchanges, exchange.id ≠ other.id →
      key ∈ exchange.request.writtenKeys → key ∉ other.request.writtenKeys := by
  have hnamed : ∀ exchange ∈ history.exchanges, key ∈ exchange.request.writtenKeys →
      key ∈ (Inbox.ofEvents exchange.id events).writtenKeys server.limits := by
    intro exchange hexchange hwritten
    exact List.mem_flatMap.mpr ⟨exchange.request, hunderway.arrived hexchange, hwritten⟩
  intro exchange hexchange other hother hid hwritten hotherWritten
  exact hseparate exchange.id other.id hid key
    (List.mem_append_right _ (hnamed exchange hexchange hwritten))
    (List.mem_append_right _ (hnamed other hother hotherWritten))

end History

/-! ## What the log holds -/

namespace Log

/-- A log that accepts values goes on doing so when a value is given to it. -/
theorem append_frame {log : Log} (haccepts : log.accepts = true) (value : Value) :
    (log.append value).2.limits = log.limits ∧ (log.append value).2.accepts = true := by
  have happends := log.appends value
  generalize log.append value = outcome at happends
  cases happends with
  | unwritable _ => exact ⟨rfl, haccepts⟩
  | shut _ _ => exact ⟨rfl, haccepts⟩
  | failed _ hhandle hfails _ _ => simp [accepts, hhandle, hfails] at haccepts
  | taken _ hhandle _ hsuffix =>
      rw [accepts, hhandle] at haccepts
      exact ⟨rfl, Handle.works_of_suffix haccepts hsuffix⟩

/-- So it does after a round of the flusher, which leaves the file where it is. -/
theorem tick_frame {log : Log} (haccepts : log.accepts = true) {volume : Volume} {content : Bytes}
    (hplace : volume.place = .file content) :
    (log.tick volume).log.limits = log.limits ∧ (log.tick volume).log.accepts = true ∧
      ∃ more, (log.tick volume).volume.place = .file more := by
  obtain ⟨handle, hhandle, hworks⟩ := Option.any_eq_true _ _ |>.mp haccepts
  obtain ⟨hlog, hvolume, -⟩ := log.tick_spec volume
  rw [hlog, hvolume, flush_open hhandle]
  refine ⟨rfl, Handle.works_of_suffix hworks handle.faults_drain, ?_⟩
  simp [Volume.write, hplace]

end Log

/-- Answering a request changes neither the limits of a log that accepts values nor that it
does. -/
theorem Server.process_frame {server : Server} {log : Log} (hlog : server.log? = some log)
    (haccepts : log.accepts = true) (request : Value) :
    ∃ next, (server.process request).server.log? = some next ∧ next.limits = log.limits ∧
      next.accepts = true := by
  have hframe := log.append_frame haccepts request
  unfold process
  split
  · exact ⟨log, hlog, rfl, haccepts⟩
  · rw [perform]
    split
    · rcases happend : log.append request with ⟨result, next⟩
      rw [happend] at hframe
      refine ⟨next, ?_, hframe⟩
      cases result with
      | ok count => simp only [record, hlog, happend]
      | error error =>
          simp only [record, hlog, happend]
          split <;> rfl
    · exact ⟨log, hlog, rfl, haccepts⟩

namespace History

variable {server : Server} {history : History} {event : Event} {limits : Limits}

/-- The log is open and takes values, and has taken all accepted writes. -/
structure Recording (limits : Limits) (history : History) : Prop where
  log : ∃ log, history.deployment.server.log? = some log ∧ log.limits = limits ∧
    log.accepts = true
  place : ∃ content, history.deployment.volume.place = .file content
  recordable : ∀ transaction ∈ history.transactions,
    transaction.exchange.isAccepted = true → transaction.recordable = true

namespace Recording

/-- Traffic keeps the log open. -/
theorem step (hrecording : history.Recording limits) (htraffic : event.isTraffic = true) :
    (history.step event).Recording limits := by
  obtain ⟨⟨log, hlog, hlimits, haccepts⟩, ⟨content, hplace⟩, hrecordable⟩ := hrecording
  have hmore : ∀ transaction ∈ (history.step event).transactions,
      transaction.exchange.isAccepted = true → transaction.recordable = true := by
    intro transaction htransaction haccepted
    rcases List.mem_append.mp htransaction with hold | hnew
    · exact hrecordable transaction hold haccepted
    · obtain ⟨-, -, -, hrecords⟩ := Deployment.mem_answered hnew
      rw [hrecords]
      exact Server.records_of_accepts hlog haccepts (Exchange.encodeFault_of_isAccepted haccepted)
  refine ⟨?_, ?_, hmore⟩
  · cases event with
    | turn id =>
        rcases history.deployment.answered_turn id with
          ⟨-, hserver⟩ | ⟨request, octets, -, hserver⟩
        · exact ⟨log, (congrArg Server.log? hserver).trans hlog, hlimits, haccepts⟩
        · obtain ⟨next, hnext, hsame, hstill⟩ := Server.process_frame hlog haccepts request
          exact ⟨next, (congrArg Server.log? hserver).trans hnext, hsame.trans hlimits, hstill⟩
    | flush =>
        obtain ⟨hsame, hstill, -⟩ := log.tick_frame haccepts hplace
        refine ⟨(log.tick history.deployment.volume).log, ?_, hsame.trans hlimits, hstill⟩
        simp [History.step, Deployment.step, Deployment.flush, Deployment.actOnLog, hlog]
    | deliver id octets => exact ⟨log, hlog, hlimits, haccepts⟩
    | finish id => exact ⟨log, hlog, hlimits, haccepts⟩
    | _ => cases htraffic
  · cases event with
    | turn id => exact ⟨content, (congrArg Volume.place (Deployment.volume_turn _ id)).trans hplace⟩
    | flush =>
        obtain ⟨-, -, more, hmorePlace⟩ := log.tick_frame haccepts hplace
        refine ⟨more, ?_⟩
        simp [History.step, Deployment.step, Deployment.flush, Deployment.actOnLog, hlog,
          hmorePlace]
    | deliver id octets => exact ⟨content, hplace⟩
    | finish id => exact ⟨content, hplace⟩
    | _ => cases htraffic

/-- The log stays open throughout. -/
theorem run (hrecording : history.Recording limits) {events : List Event}
    (htraffic : ∀ event ∈ events, event.isTraffic = true) :
    (history.run events).Recording limits := by
  induction events generalizing history with
  | nil => exact hrecording
  | cons event events ih =>
      obtain ⟨hevent, hrest⟩ := List.forall_mem_cons.mp htraffic
      exact ih (hrecording.step hevent) hrest

/-- What has been recorded is the requests of all accepted writes. -/
theorem recorded_eq (hrecording : history.Recording limits) :
    history.recorded =
      (history.exchanges.filter Exchange.isAccepted).map Exchange.request := by
  have hall : history.transactions.filter Transaction.isRecorded =
      history.transactions.filter fun transaction => transaction.exchange.isAccepted := by
    apply List.filter_congr
    intro transaction htransaction
    simpa [Transaction.isRecorded] using hrecording.recordable transaction htransaction
  rw [recorded, hall, exchanges, List.filter_map, List.map_map]
  rfl

end Recording

end History

/-! ## What a restart rebuilds -/

/-- If whole records have been written to an open log, a restart runs their commands. -/
theorem Deployment.restart_of_written {deployment : Deployment} {log : Log} {content : Bytes}
    {records : List Record} (hlog : deployment.server.log? = some log)
    (haccepts : log.accepts = true) (hplace : deployment.volume.place = .file content)
    (hsplits : Splits log.limits (log.written deployment.volume) records []) :
    (deployment.step .restart).failure? = none ∧
      (deployment.step .restart).deployment.server.keyspace =
        Keyspace.empty.dispatchAll (Command.knownAmong (records.map Record.value)) := by
  obtain ⟨handle, hhandle, hworks⟩ := Option.any_eq_true _ _ |>.mp haccepts
  have hstopped : deployment.stop.deployment.server.log? = some log := hlog
  obtain ⟨hquiet, hclosed, hfile⟩ := Deployment.releaseLog_spec hstopped hhandle hworks hplace
  have hreleased : deployment.stop.deployment.releaseLog.deployment.server.log? =
      some { log with handle? := none, halfClosed := false } := by
    rw [hclosed]
  have hwritten : log.written deployment.volume = content ++ handle.pendingOctets := by
    rw [Log.written_of_place hplace, Log.pendingOctets, hhandle]
    rfl
  rw [hwritten] at hsplits
  obtain ⟨hsuccess, hserver, -⟩ := Deployment.relaunch_spec hreleased hfile hsplits
  constructor
  · change ((none : Option LogError).or
      deployment.stop.deployment.releaseLog.failure?).or
        deployment.stop.deployment.releaseLog.deployment.relaunch.failure? = none
    rw [hquiet, hsuccess]
    rfl
  · change deployment.stop.deployment.releaseLog.deployment.relaunch.deployment.server.keyspace = _
    rw [hserver]
    rfl

/-- A log that can be replayed: it is open and takes values, whole records have been written
to it, and the server accepts no request that it could not read. -/
structure Replayable (server : Server) (volume : Volume) (log : Log) (base : List Record) :
    Prop where
  log_eq : server.log? = some log
  accepts : log.accepts = true
  place : ∃ content, volume.place = .file content
  splits : Splits log.limits (log.written volume) base []
  limits_le : server.limits ≤ log.limits

namespace History

variable {server : Server} {volume : Volume} {events : List Event}

/-- A restart runs the commands that the log held at first, and the accepted writes. -/
theorem restart_rebuilds (peers : List String) {log : Log} {base : List Record}
    (hreplayable : Replayable server volume log base)
    (htraffic : ∀ event ∈ events, event.isTraffic = true) (horderly : Event.Orderly events) :
    let history := (ofPeers server volume peers).run events
    (history.deployment.step .restart).failure? = none ∧
      (history.deployment.step .restart).deployment.server.keyspace =
        Keyspace.empty.dispatchAll (Command.knownAmong (base.map Record.value ++
          (history.exchanges.filter Exchange.isAccepted).map Exchange.request)) := by
  intro history
  obtain ⟨hlog, haccepts, ⟨content, hplace⟩, hsplits, hle⟩ := hreplayable
  have hwhole : server.logIsHalfClosed = false := by
    obtain ⟨handle, hhandle, -⟩ := Option.any_eq_true _ _ |>.mp haccepts
    simp [Server.logIsHalfClosed, hlog, Log.isHalfClosed, hhandle]
  have hunderway : history.Underway server events := .run hwhole volume peers htraffic horderly
  have hrecording : history.Recording log.limits := by
    refine Recording.run ⟨⟨log, hlog, rfl, haccepts⟩, ⟨content, hplace⟩, ?_⟩ htraffic
    intro transaction htransaction
    cases htransaction
  have hlogged : history.Logged ⟨log, volume⟩ server.appendFailures := by
    have hintact : (ofPeers server volume peers).Intact events :=
      intact_of_traffic hwhole htraffic
    refine hintact.induction (fun event hevent => Event.ne_restart (htraffic event hevent)) ?_
      fun _ _ hevent hwhole hafter hlogged => hlogged.step hwhole hafter hevent
    refine ⟨⟨[], ?_, rfl, fun _ => List.not_mem_nil⟩, rfl⟩
    simp [ofPeers, Deployment.session?, Deployment.ofPeers, hlog, Session.run]
  obtain ⟨current, hcurrent, -, hwritten⟩ := hlogged.log_eq
  have hrecorded := hrecording.recorded_eq
  obtain ⟨⟨same, hsame, hlimits, hstill⟩, ⟨more, hmore⟩, -⟩ := hrecording
  obtain rfl : current = same := Option.some.inj (hcurrent.symm.trans hsame)
  -- Every recorded request fits the limits of the log.
  have hholds : ∀ record ∈ base ++ history.recorded.map Value.written,
      record.Holds log.limits := by
    intro record hrecord
    rcases List.mem_append.mp hrecord with hbase | hnew
    · exact hsplits.holds record hbase
    · obtain ⟨request, hrequest, rfl⟩ := List.mem_map.mp hnew
      rw [hrecorded] at hrequest
      obtain ⟨exchange, hexchange, rfl⟩ := List.mem_map.mp hrequest
      obtain ⟨hthere, haccepted⟩ := List.mem_filter.mp hexchange
      exact Value.written_holds (Exchange.encodeFault_of_isAccepted haccepted)
        ((Inbox.fits_of_mem_values (hunderway.arrived hthere)).mono hle hle.2.2.2)
  have hall : Splits current.limits (current.written history.deployment.volume)
      (base ++ history.recorded.map Value.written) [] := by
    have hpartition := hsplits.partition
    rw [List.append_nil] at hpartition
    rw [hlimits, hwritten content hplace, hpartition, ← Value.joined_map_written,
      ← Record.joined_append]
    exact splits_joined hholds
  obtain ⟨hsuccess, hrebuilt⟩ := Deployment.restart_of_written hcurrent hstill hmore hall
  refine ⟨hsuccess, ?_⟩
  have hvalues : (history.recorded.map Value.written).map Record.value = history.recorded := by
    rw [List.map_map]
    exact List.map_id _
  rw [hrebuilt, List.map_append, hvalues, hrecorded]

end History

/-! ## Clients on different keys do not interfere -/

/-- What can be said about the clients of a server after some traffic, which leads to the given
history, whatever the order and the pieces in which octets have arrived. -/
structure Independent (server : Server) (volume : Volume) (peers : List String)
    (events : List Event) (history : History) : Prop where
  /-- What has been sent to a client that nobody disturbs is at any time the beginning of
  what it would get alone. -/
  output_prefix : ∀ (id : Nat) (connection : Connection),
    history.deployment.connections[id]? = some connection →
    Inbox.Undisturbed server.limits (Inbox.ofEvents · events) id →
    connection.sent.reverse <+: (Inbox.ofEvents id events).script server
  /-- Once its connection is settled, it is the same as in any run in which the same has
  arrived from it, and nothing from others. -/
  output_alone : ∀ (id : Nat) (connection : Connection),
    history.deployment.connections[id]? = some connection →
    Inbox.Undisturbed server.limits (Inbox.ofEvents · events) id →
    connection.Settled server.limits →
    ∀ (others : List String) (solo : List Event) (place : Nat) (alone : Connection),
      (∀ event ∈ solo, event.isTraffic = true) → Event.Orderly solo →
      Inbox.ofEvents place solo = Inbox.ofEvents id events →
      (∀ other, other ≠ place → (Inbox.ofEvents other solo).octets = []) →
      ((History.ofPeers server volume others).run solo).deployment.connections[place]? =
        some alone →
      alone.Settled server.limits → connection.output = alone.output
  /-- If no key is named on two connections, and all connections are settled, the keyspace is
  that of any run in which the same has arrived on each connection. -/
  keyspace_eq : Inbox.Separate server.limits (Inbox.ofEvents · events) →
    (∀ connection ∈ history.deployment.connections, connection.Settled server.limits) →
    ∀ other : List Event, (∀ event ∈ other, event.isTraffic = true) → Event.Orderly other →
      (∀ id, Inbox.ofEvents id other = Inbox.ofEvents id events) →
      (∀ connection ∈ ((History.ofPeers server volume peers).run other).deployment.connections,
        connection.Settled server.limits) →
      history.deployment.server.keyspace =
        ((History.ofPeers server volume peers).run other).deployment.server.keyspace
  /-- So is the keyspace that a restart rebuilds from the log. -/
  rebuilt_eq : Inbox.Separate server.limits (Inbox.ofEvents · events) →
    (∀ connection ∈ history.deployment.connections, connection.Settled server.limits) →
    ∀ other : List Event, (∀ event ∈ other, event.isTraffic = true) → Event.Orderly other →
      (∀ id, Inbox.ofEvents id other = Inbox.ofEvents id events) →
      (∀ connection ∈ ((History.ofPeers server volume peers).run other).deployment.connections,
        connection.Settled server.limits) →
      ∀ (log : Log) (base : List Record), Replayable server volume log base →
        (history.deployment.step .restart).failure? = none ∧
        (history.deployment.step .restart).deployment.server.keyspace =
          (((History.ofPeers server volume peers).run other).deployment.step
            .restart).deployment.server.keyspace
  /-- All connections can be settled by turns. -/
  settles : ∃ ids : List Nat,
    ∀ connection ∈ (history.run (ids.map .turn)).deployment.connections,
      connection.Settled server.limits

/-- There are as many connections as clients throughout. -/
theorem History.length_run_ofPeers (server : Server) (volume : Volume) (peers : List String)
    {events : List Event} (htraffic : ∀ event ∈ events, event.isTraffic = true) :
    ((History.ofPeers server volume peers).run events).deployment.connections.length =
      peers.length := by
  induction events using List.reverseRecOn with
  | nil => exact List.length_map _
  | append_singleton events event ih =>
      obtain ⟨hbefore, hevent⟩ := List.forall_mem_append.mp htraffic
      have hthis := hevent event (List.mem_singleton_self _)
      rw [run_append]
      refine Eq.trans (Deployment.length_step (Event.ne_restart hthis) ?_) (ih hbefore)
      rintro peer rfl
      cases hthis

/-- A connection on which nothing has arrived has no requests. -/
theorem Inbox.values_of_octets_nil {limits : Limits} {inbox : Inbox}
    (hnothing : inbox.octets = []) :
    inbox.values limits = [] := by
  have hsplits : Splits limits inbox.octets [] [] := by
    rw [hnothing]
    exact splits_nil limits
  exact Inbox.values_eq hsplits

/-- Clients on different keys do not interfere, whatever log the server has, unless the log is
half closed already. -/
theorem History.run_independent {server : Server} (hwhole : server.logIsHalfClosed = false)
    (volume : Volume) (peers : List String) {events : List Event}
    (htraffic : ∀ event ∈ events, event.isTraffic = true) (horderly : Event.Orderly events) :
    Independent server volume peers events ((ofPeers server volume peers).run events) := by
  have hunderway := Underway.run hwhole volume peers htraffic horderly
  -- Two runs in which the same has arrived on each connection.
  have hsame : Inbox.Separate server.limits (Inbox.ofEvents · events) →
      (∀ connection ∈ ((ofPeers server volume peers).run events).deployment.connections,
        connection.Settled server.limits) →
      ∀ other : List Event, (∀ event ∈ other, event.isTraffic = true) → Event.Orderly other →
        (∀ id, Inbox.ofEvents id other = Inbox.ofEvents id events) →
        (∀ connection ∈ ((ofPeers server volume peers).run other).deployment.connections,
          connection.Settled server.limits) →
        ∀ key keep, Value.lastEffect?
            ((((ofPeers server volume peers).run events).exchanges.filter keep).map
              Exchange.request) key =
          Value.lastEffect?
            ((((ofPeers server volume peers).run other).exchanges.filter keep).map
              Exchange.request) key := by
    intro hseparate hsettled other hotherTraffic hotherOrderly hinboxes hotherSettled key keep
    have hother := Underway.run hwhole volume peers hotherTraffic hotherOrderly
    have hlength := (length_run_ofPeers server volume peers hotherTraffic).trans
      (length_run_ofPeers server volume peers htraffic).symm
    exact Exchange.lastEffect_congr
      (hunderway.exchanges_eq hother hinboxes hseparate hlength hsettled hotherSettled)
      (hunderway.writes_apart hseparate) keep
  constructor
  · intro id connection hconnection hundisturbed
    exact (hunderway.output_eq hundisturbed hconnection).1
  · intro id connection hconnection hundisturbed hsettled others solo place alone hsoloTraffic
      hsoloOrderly hinbox hnobody halone haloneSettled
    have hsolo := Underway.run hwhole volume others hsoloTraffic hsoloOrderly
    have hquiet : Inbox.Undisturbed server.limits (Inbox.ofEvents · solo) place := by
      intro other hother key hwritten
      rw [Inbox.writtenKeys, Inbox.values_of_octets_nil (hnobody other hother)] at hwritten
      cases hwritten
    have hsent := ((hunderway.output_eq hundisturbed hconnection).2 hsettled).1
    have hsoloSent := ((hsolo.output_eq hquiet halone).2 haloneSettled).1
    rw [← hinbox, ← hsoloSent] at hsent
    have hall := List.reverse_injective hsent
    simp only [Connection.output, Connection.outputAfter, hall]
  · intro hseparate hsettled other hotherTraffic hotherOrderly hinboxes hotherSettled
    have hother := Underway.run hwhole volume peers hotherTraffic hotherOrderly
    apply Keyspace.ext_lookup
    intro key
    have heffect := hsame hseparate hsettled other hotherTraffic hotherOrderly hinboxes
      hotherSettled key fun _ => true
    have hrequests : ∀ history : History,
        (history.exchanges.filter fun _ => true).map Exchange.request =
          history.requests.map Prod.snd := by
      intro history
      rw [List.filter_true, requests, List.map_map]
      rfl
    rw [hrequests, hrequests] at heffect
    rw [hunderway.answers.keyspace_eq, hother.answers.keyspace_eq, Server.lookup_answerAll,
      Server.lookup_answerAll, heffect]
  · intro hseparate hsettled other hotherTraffic hotherOrderly hinboxes hotherSettled log base
      hreplayable
    obtain ⟨hsuccess, hrebuilt⟩ := restart_rebuilds peers hreplayable htraffic horderly
    obtain ⟨-, hotherRebuilt⟩ := restart_rebuilds peers hreplayable hotherTraffic
      hotherOrderly
    refine ⟨hsuccess, ?_⟩
    rw [hrebuilt, hotherRebuilt]
    apply Keyspace.ext_lookup
    intro key
    have heffect := hsame hseparate hsettled other hotherTraffic hotherOrderly hinboxes
      hotherSettled key Exchange.isAccepted
    rw [Keyspace.lookup_dispatchAll, Keyspace.lookup_dispatchAll, Value.lastEffect_knownAmong,
      Value.lastEffect_knownAmong, Value.lastEffect_append, Value.lastEffect_append, heffect]
  · exact exists_settled hunderway horderly

namespace History

/-- Two clients set keys of their own, the first in two pieces, the second with garbage
behind it; then their handlers take turns. -/
def ownKeys (turns : List Nat) : List Event :=
  [.deliver 0 (Bytes.ofString "*3\r\n$3\r\nSET\r\n$1\r\na"),
    .deliver 1 (Bytes.ofString "*3\r\n$3\r\nset\r\n$1\r\nb\r\n$1\r\n2\r\n?"),
    .deliver 0 (Bytes.ofString "\r\n$1\r\n1\r\n")] ++ turns.map .turn

/-- The first of these clients is alone, and sends its request in one piece. -/
def soloKey : List Event :=
  [.deliver 0 (Bytes.ofString "*3\r\n$3\r\nSET\r\n$1\r\na\r\n$1\r\n1\r\n"), .turn 0]

/-- A server with one key and an open log. -/
def recorder : Server :=
  .create "localhost" 6379 .standard (Keyspace.empty.put [0x78] (some (.bulk [0x79])))
    (some { Log.unopened "log.aof" .standard (.ofParts false 0 0) with handle? := some .fresh })

/-- Whoever takes turns, the same has arrived. -/
theorem inbox_ownKeys (turns : List Nat) (id : Nat) :
    Inbox.ofEvents id (ownKeys turns) = Inbox.ofEvents id (ownKeys []) := by
  induction turns using List.reverseRecOn with
  | nil => rfl
  | append_singleton turns turn ih =>
      rw [← ih, ownKeys, ownKeys, List.map_append, ← List.append_assoc]
      exact Inbox.ofEvents_turn _ id turn

/-- The keys of the two clients are different. -/
theorem separate_ownKeys (turns : List Nat) :
    Inbox.Separate .standard (Inbox.ofEvents · (ownKeys turns)) := by
  have hkeys : ∀ id, (Inbox.ofEvents id (ownKeys turns)).readKeys .standard ++
      (Inbox.ofEvents id (ownKeys turns)).writtenKeys .standard =
        if id = 0 then [[0x61]] else if id = 1 then [[0x62]] else [] := by
    intro id
    rw [inbox_ownKeys]
    match id with
    | 0 => decide +kernel
    | 1 => decide +kernel
    | id + 2 =>
        have hnothing : (Inbox.ofEvents (id + 2) (ownKeys [])).octets = [] := by
          simp [Inbox.ofEvents, ownKeys, Event.octetsOn]
        rw [Inbox.readKeys, Inbox.writtenKeys, Inbox.values_of_octets_nil hnothing]
        simp
  intro id other hother key hkey hboth
  simp only [hkeys] at hkey hboth
  split at hkey
  · split at hboth
    · omega
    · split at hboth <;> simp_all
  · split at hkey
    · split at hboth
      · simp_all
      · split at hboth <;> simp_all
    · cases hkey

/-- The log of the server can be replayed: nothing has been written to it. -/
theorem replayable_recorder : ∃ log, Replayable recorder ⟨.file [], false⟩ log [] := by
  refine ⟨_, rfl, rfl, ⟨[], rfl⟩, splits_nil _, ?_⟩
  exact ⟨le_rfl, le_rfl, le_rfl, le_rfl⟩

/-- Two clients of this server set their keys. -/
def ownKeysRun (turns : List Nat) : History :=
  (ofPeers recorder ⟨.file [], false⟩ ["first", "second"]).run (ownKeys turns)

/-- The first of them does so without the other. -/
def soloKeyRun : History :=
  (ofPeers recorder ⟨.file [], false⟩ ["first"]).run soloKey

/-- Whichever handler is first, the clients do not interfere, although the logs differ: a restart
rebuilds the same keyspace, and the first client gets what it gets alone. -/
theorem run_independent_ownKeys :
    recorder.logIsHalfClosed = false ∧ (∀ event ∈ ownKeys [0, 1, 1], event.isTraffic = true) ∧
      Event.Orderly (ownKeys [0, 1, 1]) ∧
      Inbox.Separate recorder.limits (Inbox.ofEvents · (ownKeys [0, 1, 1])) ∧
      (ownKeysRun [0, 1, 1]).recorded ≠ (ownKeysRun [1, 0, 1]).recorded ∧
      ((ownKeysRun [0, 1, 1]).deployment.step .restart).failure? = none ∧
      ((ownKeysRun [0, 1, 1]).deployment.step .restart).deployment.server.keyspace =
        ((ownKeysRun [1, 0, 1]).deployment.step .restart).deployment.server.keyspace ∧
      (ownKeysRun [0, 1, 1]).deployment.connections[0]?.map Connection.output =
        soloKeyRun.deployment.connections[0]?.map Connection.output := by
  have hwhole : recorder.logIsHalfClosed = false := rfl
  have htraffic : ∀ event ∈ ownKeys [0, 1, 1], event.isTraffic = true := by decide
  have hsolo : ∀ event ∈ soloKey, event.isTraffic = true := by decide
  have horderly : Event.Orderly (ownKeys [0, 1, 1]) := by decide +kernel
  have hseparate := separate_ownKeys [0, 1, 1]
  have hsettled : ∀ turns ∈ [[0, 1, 1], [1, 0, 1]],
      ∀ connection ∈ (ownKeysRun turns).deployment.connections,
        connection.Settled recorder.limits := by
    decide +kernel
  have hsoloSettled : ∀ connection ∈ soloKeyRun.deployment.connections,
      connection.Settled recorder.limits := by
    decide +kernel
  have hdiffer : (ownKeysRun [0, 1, 1]).recorded ≠ (ownKeysRun [1, 0, 1]).recorded := by
    decide +kernel
  have hindependent : Independent recorder ⟨.file [], false⟩ ["first", "second"]
      (ownKeys [0, 1, 1]) (ownKeysRun [0, 1, 1]) :=
    run_independent hwhole _ _ htraffic horderly
  obtain ⟨log, hreplayable⟩ := replayable_recorder
  have hinboxes : ∀ id, Inbox.ofEvents id (ownKeys [1, 0, 1]) =
      Inbox.ofEvents id (ownKeys [0, 1, 1]) := by
    intro id
    rw [inbox_ownKeys, inbox_ownKeys [0, 1, 1]]
  have hrebuilt := hindependent.rebuilt_eq hseparate (hsettled _ (by simp))
    (ownKeys [1, 0, 1]) (by decide) (by decide +kernel) hinboxes (hsettled _ (by simp)) log []
    hreplayable
  rw [← ownKeysRun] at hrebuilt
  refine ⟨hwhole, htraffic, horderly, hseparate, hdiffer, hrebuilt.1, hrebuilt.2, ?_⟩
  have htwo : (ownKeysRun [0, 1, 1]).deployment.connections.length = 2 :=
    length_run_ofPeers _ _ _ htraffic
  have hone : soloKeyRun.deployment.connections.length = 1 := length_run_ofPeers _ _ _ hsolo
  have hconnection := List.getElem?_eq_getElem (htwo.symm ▸ Nat.two_pos)
  have halone := List.getElem?_eq_getElem (hone.symm ▸ Nat.one_pos)
  have hnobody : ∀ place, place ≠ 0 → (Inbox.ofEvents place soloKey).octets = [] := by
    intro place hplace
    simp [Inbox.ofEvents, soloKey, Event.octetsOn, Ne.symm hplace]
  rw [hconnection, halone, Option.map_some, Option.map_some]
  apply congrArg some
  exact hindependent.output_alone 0 _ hconnection (hseparate.undisturbed 0)
    (hsettled _ (by simp) _ (List.getElem_mem _)) ["first"] soloKey 0 _ hsolo (by decide +kernel)
    (by decide +kernel) hnobody halone (hsoloSettled _ (List.getElem_mem _))

end History

end DurableStore
