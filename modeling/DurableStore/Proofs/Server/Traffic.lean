import DurableStore.Proofs.Server.Accounts
import DurableStore.Proofs.Server.Arrivals
import Mathlib.Algebra.GroupWithZero.Nat

/-!
# Traffic on connections

Octets arrive on connections, clients send nothing more, handlers take turns, and the log
is flushed, in any order.  How far a connection has come depends on what has arrived on it
and on the replies it has got: it goes on, it was given up because a reply has no written
form, or it has ended with its stream or with the last answer.  When all handlers have
taken turns enough, every connection waits for octets or has ended.

Main results:

- Definition `Event.isTraffic`: what can happen without faults.
- Definition `Deployment.Passes` and theorem `Deployment.passes`: what traffic does to a
  connection.
- Definition `Connection.Stage`: how far a connection has come.
- Theorem `History.Underway.run`: every run keeps all connections on their way.
- Theorem `History.exists_settled`: turns enough settle all connections.
-/

namespace DurableStore

/-! ## Events -/

namespace Event

/-- Octets arrive, a client sends nothing more, a handler takes a turn, or the flusher has
its round. -/
def isTraffic : Event → Bool
  | .deliver _ _ | .finish _ | .turn _ | .flush => true
  | _ => false

/-- The octets that an event brings to a connection. -/
def octetsOn (id : Nat) : Event → Bytes
  | .deliver other octets => if other = id then octets else []
  | _ => []

/-- One event may come before another: nothing arrives from a client that sends nothing
more. -/
def allows : Event → Event → Bool
  | .finish id, .deliver other _ => id != other
  | _, _ => true

/-- Nothing arrives from clients that send nothing more. -/
def Orderly (events : List Event) : Prop :=
  events.Pairwise fun event later => event.allows later = true

instance (events : List Event) : Decidable (Orderly events) :=
  inferInstanceAs (Decidable (events.Pairwise fun event later => event.allows later = true))

/-- Traffic is no restart. -/
theorem ne_restart {event : Event} (htraffic : event.isTraffic = true) : event ≠ .restart := by
  rintro rfl
  cases htraffic

/-- The first events of orderly events are orderly, and the next one may come behind
them. -/
theorem Orderly.concat {events : List Event} {event : Event}
    (horderly : Orderly (events ++ [event])) :
    Orderly events ∧ ∀ earlier ∈ events, earlier.allows event = true := by
  obtain ⟨hbefore, -, hlast⟩ := List.pairwise_append.mp horderly
  exact ⟨hbefore, fun earlier hearlier => hlast earlier hearlier event (List.mem_singleton_self _)⟩

end Event

/-- All that has arrived on a connection. -/
def Inbox.ofEvents (id : Nat) (events : List Event) : Inbox :=
  ⟨events.flatMap (Event.octetsOn id), decide (Event.finish id ∈ events)⟩

namespace Inbox

variable {events : List Event} {event : Event} {id : Nat}

/-- What arrives comes behind what has arrived. -/
theorem ofEvents_deliver {octets : Bytes}
    (horderly : Event.Orderly (events ++ [.deliver id octets])) :
    ofEvents id (events ++ [.deliver id octets]) =
      (ofEvents id events).receive (.octets id octets) ∧ (ofEvents id events).ended = false := by
  have hgoing : Event.finish id ∉ events := by
    intro hfinish
    have hallows := horderly.concat.2 _ hfinish
    simp [Event.allows] at hallows
  simp [ofEvents, receive, Event.octetsOn, hgoing, Arrival.chunk, Arrival.isLast]

/-- The end comes behind what has arrived. -/
theorem ofEvents_finish (events : List Event) (id : Nat) :
    ofEvents id (events ++ [.finish id]) = (ofEvents id events).receive (.finish id) := by
  by_cases hended : Event.finish id ∈ events <;>
    simp [ofEvents, receive, Event.octetsOn, hended, Arrival.chunk, Arrival.isLast]

/-- Other events bring nothing to a connection. -/
theorem ofEvents_other (hdeliver : ∀ octets, event ≠ .deliver id octets)
    (hfinish : event ≠ .finish id) :
    ofEvents id (events ++ [event]) = ofEvents id events := by
  have hnothing : event.octetsOn id = [] := by
    cases event with
    | deliver other octets =>
        have hother : other ≠ id := by
          rintro rfl
          exact hdeliver octets rfl
        simp [Event.octetsOn, hother]
    | _ => rfl
  simp [ofEvents, hnothing, Ne.symm hfinish]

/-- A turn brings nothing to a connection. -/
theorem ofEvents_turn (events : List Event) (id other : Nat) :
    ofEvents id (events ++ [.turn other]) = ofEvents id events :=
  ofEvents_other (by simp) (by simp)

end Inbox

/-! ## What traffic does to a connection -/

namespace Connection

/-- Sending a reply does not reveal whether the client is there. -/
theorem drainFails_reply (value : Value) (connection : Connection) :
    (connection.reply value).1.drainFails = connection.drainFails := by
  unfold reply
  split <;> rfl

/-- Nor does answering a request. -/
theorem drainFails_respond (processed : Processed) (connection : Connection) :
    (connection.respond processed).1.drainFails = connection.drainFails := by
  unfold respond
  split
  · exact connection.drainFails_reply processed.reply
  · rfl

/-- Answering a request does not touch the octets received. -/
theorem stream_respond (processed : Processed) (connection : Connection) :
    (connection.respond processed).1.stream = connection.stream := by
  unfold respond
  split
  · exact connection.stream_reply processed.reply
  · rfl

end Connection

/-- A turn changes neither whether the client will send more nor whether it is there. -/
theorem Server.turn_frame {server : Server} {connection : Connection}
    (hsound : connection.stream.Sound server.limits) :
    (server.turn connection).connection.stream.closed = connection.stream.closed ∧
      (server.turn connection).connection.drainFails = connection.drainFails := by
  obtain ⟨left, hnext, -, hclosed, -⟩ := hsound.next (show 0 < Settings.readSize by decide)
  unfold turn
  rw [hnext]
  split
  · exact ⟨rfl, rfl⟩
  · split
    all_goals
      rename_i heq
      obtain ⟨-, rfl⟩ := Prod.mk.inj heq
      simp [Connection.dismiss, Connection.close, Connection.stream_reply,
        Connection.drainFails_reply, Connection.stream_respond, Connection.drainFails_respond,
        hclosed]

namespace Deployment

variable {deployment : Deployment} {event : Event} {id : Nat} {before after : Connection}

/-- What traffic can do to a connection, and what is answered on it. -/
inductive Passes (deployment : Deployment) (event : Event) (id : Nat) (before : Connection) :
    Connection → Prop
  /-- Octets arrive. -/
  | delivered {octets : Bytes} (hevent : event = .deliver id octets)
      (hanswered : Transaction.on id (deployment.answered event) = []) :
      Passes deployment event id before (before.deliver octets)
  /-- The client sends nothing more. -/
  | finished (hevent : event = .finish id)
      (hanswered : Transaction.on id (deployment.answered event) = []) :
      Passes deployment event id before before.finish
  /-- A request is answered. -/
  | served {transaction : Transaction} {left : Stream} (hevent : event = .turn id)
      (hopen : before.isOpen = true)
      (hholds : transaction.record.Holds deployment.server.limits)
      (hsound : left.Sound deployment.server.limits) (hclosed : left.closed = before.stream.closed)
      (hoctets : before.stream.octets = transaction.octets ++ left.octets)
      (hanswered : Transaction.on id (deployment.answered event) = [transaction]) :
      Passes deployment event id before
        ({ before with stream := left }.reply transaction.exchange.reply).1
  /-- No request is found. -/
  | concluded {left : Stream} (hevent : event = .turn id) (hopen : before.isOpen = true)
      (hsound : left.Sound deployment.server.limits) (hclosed : left.closed = before.stream.closed)
      (hoctets : left.octets = before.stream.octets)
      (hsplits : Splits deployment.server.limits before.stream.octets [] before.stream.octets)
      (hanswered : Transaction.on id (deployment.answered event) = []) :
      Passes deployment event id before (before.conclude deployment.server.limits left [])
  /-- The connection is left alone. -/
  | unchanged (hdeliver : ∀ octets, event ≠ .deliver id octets) (hfinish : event ≠ .finish id)
      (hturn : event = .turn id → before.isOpen = false)
      (hanswered : Transaction.on id (deployment.answered event) = []) :
      Passes deployment event id before before

/-- A request that is answered in a turn is on its connection. -/
theorem on_answered_turn (deployment : Deployment) (id other : Nat) :
    Transaction.on id (deployment.answered (.turn other)) =
      if other = id then deployment.answered (.turn other) else [] := by
  have hid : ∀ transaction ∈ deployment.answered (.turn other),
      transaction.exchange.id = other := by
    intro transaction htransaction
    exact (Event.turn.inj (mem_answered htransaction).1).symm
  by_cases hsame : other = id
  · rw [if_pos hsame]
    apply List.filter_eq_self.mpr
    intro transaction htransaction
    simpa [hid transaction htransaction] using hsame
  · rw [if_neg hsame]
    apply List.filter_eq_nil_iff.mpr
    intro transaction htransaction
    simpa [hid transaction htransaction] using hsame

/-- A turn of the handler of an open connection answers the request with which its octets
begin, or finds none. -/
theorem passes_turn (hwhole : deployment.server.logIsHalfClosed = false)
    (hbefore : deployment.connections[id]? = some before)
    (hopen : before.isOpen = true) (hsound : before.stream.Sound deployment.server.limits)
    (hafter : (deployment.turn id).deployment.connections[id]? = some after) :
    Passes deployment (.turn id) id before after := by
  have hlength := (List.getElem?_eq_some_iff.mp hbefore).1
  have hturned : (deployment.turn id).deployment.connections =
      deployment.connections.set id (deployment.server.turn before).connection := by
    simp only [turn, hbefore, Outcome.quiet]
  obtain ⟨hclosed, -⟩ := Server.turn_frame hsound
  have hon := deployment.on_answered_turn id id
  rw [if_pos rfl] at hon
  have hsame : ∀ last, (deployment.turn id).deployment.connections =
      deployment.connections.set id last → after = last ∧
        last.stream.closed = before.stream.closed := by
    intro last hset
    rw [hset, List.getElem?_set_self hlength] at hafter
    have hlast := congrArg (·[id]?) (hset.symm.trans hturned)
    simp only [List.getElem?_set_self hlength, Option.some.injEq] at hlast
    exact ⟨(Option.some.inj hafter).symm, hlast ▸ hclosed⟩
  rcases deployment.answered_takes hwhole hbefore hopen hsound with
    ⟨transaction, left, hholds, hsafe, hoctets, -, hanswered, hset⟩ |
    ⟨left, hsafe, hoctets, hanswered, hset⟩
  · obtain ⟨rfl, hleft⟩ := hsame _ hset
    rw [Connection.stream_reply] at hleft
    exact .served rfl hopen hholds hsafe hleft hoctets (hon.trans hanswered)
  · obtain ⟨rfl, hleft⟩ := hsame _ hset
    refine .concluded rfl hopen hsafe hleft hoctets ?_ (hon.trans hanswered)
    -- A request at the beginning of the octets would have been answered.
    obtain ⟨records, rest, hsplits⟩ :=
      exists_splits deployment.server.limits before.stream.octets
    cases records with
    | nil =>
        have hrest := hsplits.partition
        rw [Record.joined_nil, List.nil_append] at hrest
        rwa [← hrest] at hsplits
    | cons record records =>
        have hpartition := hsplits.partition
        rw [Record.joined_cons, List.append_assoc] at hpartition
        obtain ⟨-, -, -, hsome, -⟩ := deployment.answered_of_holds hwhole hbefore hopen hsound
          (hsplits.holds record List.mem_cons_self) hpartition
        rw [hanswered] at hsome
        cases hsome

/-- What traffic does to a connection. -/
theorem passes (htraffic : event.isTraffic = true)
    (hwhole : deployment.server.logIsHalfClosed = false)
    (hbefore : deployment.connections[id]? = some before)
    (hsound : before.stream.Sound deployment.server.limits)
    (hafter : (deployment.step event).deployment.connections[id]? = some after) :
    Passes deployment event id before after := by
  have hlength := (List.getElem?_eq_some_iff.mp hbefore).1
  cases event with
  | deliver other octets =>
      change (deployment.connections.modify other _)[id]? = some after at hafter
      rw [List.getElem?_modify, hbefore] at hafter
      by_cases hsame : other = id
      · subst hsame
        obtain rfl : before.deliver octets = after := by simpa using hafter
        exact .delivered rfl rfl
      · obtain rfl : before = after := by simpa [hsame] using hafter
        refine .unchanged ?_ (by simp) (by simp) rfl
        intro octets' hevent
        exact hsame (Event.deliver.inj hevent).1
  | finish other =>
      change (deployment.connections.modify other _)[id]? = some after at hafter
      rw [List.getElem?_modify, hbefore] at hafter
      by_cases hsame : other = id
      · subst hsame
        obtain rfl : before.finish = after := by simpa using hafter
        exact .finished rfl rfl
      · obtain rfl : before = after := by simpa [hsame] using hafter
        refine .unchanged (by simp) ?_ (by simp) rfl
        intro hevent
        exact hsame (Event.finish.inj hevent)
  | turn other =>
      have hquiet : after = before → (other = id → before.isOpen = false) →
          Transaction.on id (deployment.answered (.turn other)) = [] →
          Passes deployment (.turn other) id before after := by
        rintro rfl hturn hanswered
        refine .unchanged (by simp) (by simp) ?_ hanswered
        intro hevent
        exact hturn (Event.turn.inj hevent)
      by_cases hsame : other = id
      · subst hsame
        by_cases hopen : before.isOpen = true
        · exact passes_turn hwhole hbefore hopen hsound hafter
        · have hended : before.isOpen = false := by simpa using hopen
          have hturn : deployment.server.turn before = ⟨.idle, deployment.server, before, []⟩ :=
            Server.turn_closed hended
          change (deployment.turn other).deployment.connections[other]? = some after at hafter
          simp only [turn, hbefore, Outcome.quiet, hturn, List.getElem?_set_self hlength,
            Option.some.injEq] at hafter
          apply hquiet hafter.symm fun _ => hended
          rw [on_answered_turn, if_pos rfl]
          simp only [answered, hbefore, hturn]
      · apply hquiet
        · change (deployment.turn other).deployment.connections[id]? = some after at hafter
          unfold turn at hafter
          split at hafter
          · rw [Outcome.quiet, hbefore] at hafter
            exact (Option.some.inj hafter).symm
          · rw [Outcome.quiet, List.getElem?_set_ne hsame, hbefore] at hafter
            exact (Option.some.inj hafter).symm
        · exact fun hother => absurd hother hsame
        · rw [on_answered_turn, if_neg hsame]
  | flush =>
      change deployment.flush.deployment.connections[id]? = some after at hafter
      rw [flush, (deployment.actOnLog_frame _).1, hbefore] at hafter
      obtain rfl := Option.some.inj hafter
      exact .unchanged (by simp) (by simp) (by simp) rfl
  | _ => cases htraffic

/-- Traffic does not leave the log half closed. -/
theorem logIsHalfClosed_step (htraffic : event.isTraffic = true) :
    (deployment.step event).deployment.server.logIsHalfClosed =
      deployment.server.logIsHalfClosed := by
  cases event with
  | turn id =>
      simp only [step, turn]
      split
      · rfl
      · exact deployment.server.logIsHalfClosed_turn _
  | flush =>
      simp only [step, flush, actOnLog]
      split
      · rfl
      · rename_i log hlog
        have hsame := (log.flush_frame deployment.volume).2.1
        rw [← (log.tick_spec deployment.volume).1] at hsame
        rw [Server.logIsHalfClosed, Server.logIsHalfClosed, hlog]
        exact hsame
  | deliver id octets => rfl
  | finish id => rfl
  | _ => cases htraffic

end Deployment

/-! ## How far a connection has come -/

/-- Whether a reply has a written form. -/
def Value.isWritten (reply : Value) : Bool :=
  reply.encodeFault?.isNone

namespace Connection

/-- How far a connection has come with what has arrived on it, when these requests have
been answered on it with these replies. -/
inductive Stage (limits : Limits) (inbox : Inbox) (requests replies : List Value)
    (connection : Connection) : Prop
  /-- The requests are the first to have arrived, and their replies have been sent. -/
  | going {records : List Record} (hopen : connection.isOpen = true)
      (hclosed : connection.stream.closed = inbox.ended)
      (hholds : ∀ record ∈ records, record.Holds limits)
      (hoctets : inbox.octets = Record.joined records ++ connection.stream.octets)
      (hrequests : requests = records.map Record.value)
      (hwritten : ∀ reply ∈ replies, reply.isWritten = true)
      (hsent : connection.sent.reverse = replies.map Value.wire)
  /-- The last reply has no written form. -/
  | gaveUp {records : List Record} {rest : Bytes} {earlier : List Value} {last : Value}
      (hopen : connection.isOpen = false)
      (hholds : ∀ record ∈ records, record.Holds limits)
      (hoctets : inbox.octets = Record.joined records ++ rest)
      (hrequests : requests = records.map Record.value)
      (hreplies : replies = earlier ++ [last])
      (hwritten : ∀ reply ∈ earlier, reply.isWritten = true) (hlast : last.isWritten = false)
      (hsent : connection.sent.reverse = earlier.map Value.wire)
  /-- All requests that will arrive have been answered, and the last answer has been given
  if there is one. -/
  | concluded (hopen : connection.isOpen = false) (hrequests : requests = inbox.values limits)
      (hwritten : ∀ reply ∈ replies, reply.isWritten = true)
      (hdone : inbox.ended = true ∨ (inbox.lastReply? limits).isSome = true)
      (hsent : connection.sent.reverse =
        (replies ++ (inbox.lastReply? limits).toList).map Value.wire)

namespace Stage

variable {limits : Limits} {inbox : Inbox} {requests replies : List Value}
  {connection : Connection}

/-- A connection on which nothing has happened is about to go on. -/
theorem fresh (limits : Limits) (peer : String) :
    (Connection.fresh peer).Stage limits .empty [] [] := by
  have hnothing : Inbox.empty.octets =
      Record.joined [] ++ (Connection.fresh peer).stream.octets := rfl
  exact .going rfl rfl (by simp) hnothing rfl (by simp) rfl

/-- Octets arrive. -/
theorem deliver (hstage : connection.Stage limits inbox requests replies)
    (hgoing : inbox.ended = false) (id : Nat) (octets : Bytes) :
    (connection.deliver octets).Stage limits (inbox.receive (.octets id octets)) requests
      replies := by
  have hreceive : inbox.receive (.octets id octets) = ⟨inbox.octets ++ octets, false⟩ := by
    simp [Inbox.receive, hgoing, Arrival.chunk, Arrival.isLast]
  cases hstage with
  | going hopen hclosed hholds hoctets hrequests hwritten hsent =>
      rw [Connection.deliver, if_pos hopen, hreceive]
      refine .going hopen (hclosed.trans hgoing) hholds ?_ hrequests hwritten hsent
      rw [hoctets, List.append_assoc]
      exact congrArg _ (List.append_assoc ..)
  | gaveUp hopen hholds hoctets hrequests hreplies hwritten hlast hsent =>
      rw [Connection.deliver, if_neg (by simp [hopen]), hreceive]
      have hmore := congrArg (· ++ octets) hoctets
      simp only [List.append_assoc] at hmore
      exact .gaveUp hopen hholds hmore hrequests hreplies hwritten hlast hsent
  | concluded hopen hrequests hwritten hdone hsent =>
      rw [Connection.deliver, if_neg (by simp [hopen])]
      obtain ⟨hvalues, hlast, hstill⟩ := Inbox.receive_done hdone (.octets id octets)
      exact .concluded hopen (hrequests.trans hvalues.symm) hwritten hstill (by rw [hsent, hlast])

/-- The client sends nothing more. -/
theorem finish (hstage : connection.Stage limits inbox requests replies) (id : Nat) :
    connection.finish.Stage limits (inbox.receive (.finish id)) requests replies := by
  have hreceive : (inbox.receive (.finish id)).octets = inbox.octets ∧
      (inbox.receive (.finish id)).ended = true := by
    cases hended : inbox.ended <;>
      simp [Inbox.receive, hended, Arrival.chunk, Arrival.isLast]
  cases hstage with
  | going hopen hclosed hholds hoctets hrequests hwritten hsent =>
      exact .going hopen hreceive.2.symm hholds (hreceive.1.trans hoctets) hrequests hwritten hsent
  | gaveUp hopen hholds hoctets hrequests hreplies hwritten hlast hsent =>
      exact .gaveUp hopen hholds (hreceive.1.trans hoctets) hrequests hreplies hwritten hlast hsent
  | concluded hopen hrequests hwritten hdone hsent =>
      obtain ⟨hvalues, hlast, hstill⟩ := Inbox.receive_done hdone (.finish id)
      refine .concluded hopen (hrequests.trans hvalues.symm) hwritten hstill ?_
      rw [hlast]
      exact hsent

/-- A request is answered; the connection is given up if its reply has no written form. -/
theorem served (hstage : connection.Stage limits inbox requests replies)
    (hopen : connection.isOpen = true) (hdrains : connection.drainFails = false) {record : Record}
    {left : Stream} (hrecord : record.Holds limits)
    (hclosed : left.closed = connection.stream.closed)
    (hoctets : connection.stream.octets = record.octets ++ left.octets) (reply : Value) :
    ({ connection with stream := left }.reply reply).1.Stage limits inbox
      (requests ++ [record.value]) (replies ++ [reply]) := by
  cases hstage with
  | gaveUp hended => simp [hended] at hopen
  | concluded hended => simp [hended] at hopen
  | @going records _ hsame hholds hall hrequests hwritten hsent =>
      have hmore : ∀ other ∈ records ++ [record], other.Holds limits := by
        intro other hother
        rcases List.mem_append.mp hother with hold | hnew
        · exact hholds other hold
        · rw [List.mem_singleton.mp hnew]
          exact hrecord
      have hpartition : inbox.octets = Record.joined (records ++ [record]) ++ left.octets := by
        rw [hall, hoctets, Record.joined_append, List.append_assoc]
        simp
      have hvalues : requests ++ [record.value] = (records ++ [record]).map Record.value := by
        rw [hrequests, List.map_append, List.map_singleton]
      cases hfault : reply.encodeFault? with
      | none =>
          rw [reply_spec hfault (by exact hdrains)]
          refine .going hopen (hclosed.trans hsame) hmore hpartition hvalues ?_ ?_
          · intro other hother
            rcases List.mem_append.mp hother with hold | hnew
            · exact hwritten other hold
            · simp [List.mem_singleton.mp hnew, Value.isWritten, hfault]
          · simp [hsent]
      | some fault =>
          have hgiven : ({ connection with stream := left }.reply reply).1 =
              { connection with stream := left }.close := by
            simp [Connection.reply, Value.encode, hfault]
          rw [hgiven]
          exact .gaveUp rfl hmore hpartition hvalues rfl hwritten
            (by simp [Value.isWritten, hfault]) hsent

/-- No request is found; the connection ends with its stream or with the last answer. -/
theorem conclude (hstage : connection.Stage limits inbox requests replies)
    (hopen : connection.isOpen = true) {left : Stream}
    (hclosed : left.closed = connection.stream.closed)
    (hoctets : left.octets = connection.stream.octets)
    (hsplits : Splits limits connection.stream.octets [] connection.stream.octets) :
    (connection.conclude limits left []).Stage limits inbox requests replies := by
  cases hstage with
  | gaveUp hended => simp [hended] at hopen
  | concluded hended => simp [hended] at hopen
  | @going records _ hsame hholds hall hrequests hwritten hsent =>
      have hdivision := hsplits.prepend hholds
      rw [List.append_nil, ← hall] at hdivision
      have hlast : lastReply? limits left.closed left.octets = inbox.lastReply? limits := by
        rw [Inbox.lastReply?, Inbox.rest_eq hdivision, hclosed, hsame, hoctets]
      have hsent' : (connection.conclude limits left []).sent.reverse =
          (replies ++ (inbox.lastReply? limits).toList).map Value.wire := by
        rw [Connection.conclude, hlast]
        simp [hsent]
      by_cases hends : inbox.ended = true ∨ (inbox.lastReply? limits).isSome = true
      · refine .concluded ?_ (hrequests.trans (Inbox.values_eq hdivision).symm) hwritten hends
          hsent'
        rw [Connection.conclude, hlast, hclosed, hsame]
        rcases hends with hend | hsome
        · simp [hend]
        · cases hreply : inbox.lastReply? limits with
          | none => simp [hreply] at hsome
          | some reply => simp
      · obtain ⟨hend, hnone⟩ := not_or.mp hends
        rw [Option.not_isSome_iff_eq_none] at hnone
        refine .going ?_ (hclosed.trans hsame) hholds (hall.trans (by rw [← hoctets]; rfl))
          hrequests hwritten ?_
        · rw [Connection.conclude, hlast, hclosed, hsame, hnone]
          simpa using hend
        · rw [hsent', hnone]
          simp

end Stage

end Connection

/-! ## All connections -/

namespace History

variable {server : Server} {history : History} {events : List Event} {event : Event}

/-- Traffic does not leave the log half closed at any time. -/
theorem intact_of_traffic (hwhole : history.deployment.server.logIsHalfClosed = false)
    (htraffic : ∀ event ∈ events, event.isTraffic = true) : history.Intact events := by
  induction events generalizing history with
  | nil =>
      intro before hbefore
      rw [List.mem_singleton.mp hbefore]
      exact hwhole
  | cons event events ih =>
      obtain ⟨hevent, hrest⟩ := List.forall_mem_cons.mp htraffic
      exact Intact.cons_iff.mpr
        ⟨hwhole, ih ((Deployment.logIsHalfClosed_step hevent).trans hwhole) hrest⟩

/-- The beginning of a history in which clients have connected. -/
def ofPeers (server : Server) (volume : Volume) (peers : List String) : History :=
  ⟨.ofPeers server volume peers, [], fun _ => []⟩

/-- All connections are on their way when these events have taken place. -/
structure Underway (server : Server) (events : List Event) (history : History) : Prop where
  answers : history.Answers server
  whole : history.deployment.server.logIsHalfClosed = false
  drains : ∀ (id : Nat) (connection : Connection),
    history.deployment.connections[id]? = some connection → connection.drainFails = false
  sound : ∀ (id : Nat) (connection : Connection),
    history.deployment.connections[id]? = some connection → connection.stream.Sound server.limits
  stage : ∀ (id : Nat) (connection : Connection),
    history.deployment.connections[id]? = some connection →
      connection.Stage server.limits (.ofEvents id events)
        ((Exchange.on id history.exchanges).map Exchange.request)
        ((Exchange.on id history.exchanges).map Exchange.reply)
  absent : ∀ id, history.deployment.connections.length ≤ id → Exchange.on id history.exchanges = []

namespace Underway

/-- At first all connections are about to go on. -/
theorem ofPeers (hwhole : server.logIsHalfClosed = false) (volume : Volume)
    (peers : List String) : (History.ofPeers server volume peers).Underway server [] := by
  have hfresh : ∀ (id : Nat) (connection : Connection),
      (History.ofPeers server volume peers).deployment.connections[id]? = some connection →
        ∃ peer, connection = .fresh peer := by
    intro id connection hconnection
    change (peers.map Connection.fresh)[id]? = some connection at hconnection
    rw [List.getElem?_map] at hconnection
    obtain ⟨peer, -, rfl⟩ := Option.map_eq_some_iff.mp hconnection
    exact ⟨peer, rfl⟩
  constructor
  · exact ⟨rfl, rfl, rfl⟩
  · exact hwhole
  · intro id connection hconnection
    obtain ⟨peer, rfl⟩ := hfresh id connection hconnection
    rfl
  · intro id connection hconnection
    obtain ⟨peer, rfl⟩ := hfresh id connection hconnection
    exact Receiver.sound_empty
  · intro id connection hconnection
    obtain ⟨peer, rfl⟩ := hfresh id connection hconnection
    exact .fresh server.limits peer
  · intro id _
    rfl

/-- Traffic keeps all connections on their way. -/
theorem step (hunderway : history.Underway server events) (htraffic : event.isTraffic = true)
    (horderly : Event.Orderly (events ++ [event])) :
    (history.step event).Underway server (events ++ [event]) := by
  obtain ⟨hanswers, hwhole, hdrains, hsound, hstage, habsent⟩ := hunderway
  have hrestart := Event.ne_restart htraffic
  have hconnect : ∀ peer, event ≠ .connect peer := by
    rintro peer rfl
    cases htraffic
  have hmore : ∀ id, Exchange.on id (history.step event).exchanges =
      Exchange.on id history.exchanges ++
        (Transaction.on id (history.deployment.answered event)).map Transaction.exchange := by
    intro id
    rw [exchanges, History.step, List.map_append, Exchange.on_append, Transaction.map_exchange_on]
    rfl
  have hpasses : ∀ (id : Nat) (after : Connection),
      (history.step event).deployment.connections[id]? = some after →
      ∃ before, history.deployment.connections[id]? = some before ∧
        history.deployment.Passes event id before after := by
    intro id after hafter
    cases hbefore : history.deployment.connections[id]? with
    | none =>
        obtain ⟨peer, hpeer, -⟩ := Deployment.newcomer hrestart hbefore hafter
        exact absurd hpeer (hconnect peer)
    | some before =>
        have hsafe := hsound id before hbefore
        rw [← hanswers.limits_eq] at hsafe
        exact ⟨before, rfl, Deployment.passes htraffic hwhole hbefore hsafe hafter⟩
  refine ⟨hanswers.step hrestart, (Deployment.logIsHalfClosed_step htraffic).trans hwhole, ?_, ?_,
    ?_, ?_⟩
  · intro id after hafter
    obtain ⟨before, hbefore, hpassed⟩ := hpasses id after hafter
    have hpresent := hdrains id before hbefore
    cases hpassed with
    | delivered =>
        unfold Connection.deliver
        split <;> exact hpresent
    | served => exact (Connection.drainFails_reply _ _).trans hpresent
    | _ => exact hpresent
  · intro id after hafter
    obtain ⟨before, hbefore, hpassed⟩ := hpasses id after hafter
    have hsafe := hsound id before hbefore
    cases hpassed with
    | delivered => exact (before.quiet_deliver _).sound _ hsafe
    | finished => exact hsafe
    | served _ _ _ hleft =>
        rw [Connection.stream_reply, ← hanswers.limits_eq]
        exact hleft
    | concluded _ _ hleft =>
        rw [← hanswers.limits_eq]
        exact hleft
    | unchanged => exact hsafe
  · intro id after hafter
    obtain ⟨before, hbefore, hpassed⟩ := hpasses id after hafter
    have hbeforeStage := hstage id before hbefore
    rw [hmore]
    cases hpassed with
    | delivered hevent hanswered =>
        subst hevent
        obtain ⟨hinbox, hgoing⟩ := Inbox.ofEvents_deliver horderly
        rw [hanswered, List.map_nil, List.append_nil, hinbox]
        exact hbeforeStage.deliver hgoing id _
    | finished hevent hanswered =>
        subst hevent
        rw [hanswered, List.map_nil, List.append_nil, Inbox.ofEvents_finish]
        exact hbeforeStage.finish id
    | served hevent hopen hholds hleft hclosed hoctets hanswered =>
        subst hevent
        rw [hanswers.limits_eq] at hholds
        rw [hanswered, Inbox.ofEvents_turn, List.map_append, List.map_append]
        exact hbeforeStage.served hopen (hdrains id before hbefore) hholds hclosed hoctets _
    | concluded hevent hopen hleft hclosed hoctets hsplits hanswered =>
        subst hevent
        rw [hanswers.limits_eq] at hsplits ⊢
        rw [hanswered, Inbox.ofEvents_turn, List.map_nil, List.append_nil]
        exact hbeforeStage.conclude hopen hclosed hoctets hsplits
    | unchanged hdeliver hfinish _ hanswered =>
        rw [hanswered, Inbox.ofEvents_other hdeliver hfinish, List.map_nil, List.append_nil]
        exact hbeforeStage
  · intro id hlate
    have hlength : (history.step event).deployment.connections.length =
        history.deployment.connections.length := Deployment.length_step hrestart hconnect
    rw [hlength] at hlate
    have hnothing : Transaction.on id (history.deployment.answered event) = [] := by
      apply List.filter_eq_nil_iff.mpr
      intro transaction htransaction
      have hexists := (Deployment.mem_answered htransaction).2.1
      have hother : transaction.exchange.id ≠ id := by omega
      simpa using hother
    rw [hmore, habsent id hlate, hnothing]
    rfl

/-- All connections are on their way throughout. -/
theorem run (hwhole : server.logIsHalfClosed = false) (volume : Volume) (peers : List String)
    {events : List Event} (htraffic : ∀ event ∈ events, event.isTraffic = true)
    (horderly : Event.Orderly events) :
    ((History.ofPeers server volume peers).run events).Underway server events := by
  induction events using List.reverseRecOn with
  | nil => exact .ofPeers hwhole volume peers
  | append_singleton events event ih =>
      obtain ⟨hbefore, hevent⟩ := List.forall_mem_append.mp htraffic
      rw [run_append]
      exact (ih hbefore horderly.concat.1).step (hevent event (List.mem_singleton_self _)) horderly

/-- The requests that have been answered on a connection are the first of those that have
arrived. -/
theorem requests_prefix (hunderway : history.Underway server events) (id : Nat) :
    (Exchange.on id history.exchanges).map Exchange.request <+:
      (Inbox.ofEvents id events).values server.limits := by
  cases hconnection : history.deployment.connections[id]? with
  | none =>
      rw [hunderway.absent id (List.getElem?_eq_none_iff.mp hconnection)]
      exact List.nil_prefix
  | some connection =>
      have hfirst : ∀ (records : List Record) (rest : Bytes),
          (∀ record ∈ records, record.Holds server.limits) →
          (Inbox.ofEvents id events).octets = Record.joined records ++ rest →
          records.map Record.value <+: (Inbox.ofEvents id events).values server.limits := by
        intro records rest hholds hoctets
        obtain ⟨later, tail, hsplits⟩ := exists_splits server.limits rest
        have hall := hsplits.prepend hholds
        rw [← hoctets] at hall
        rw [Inbox.values_eq hall, List.map_append]
        exact List.prefix_append _ _
      cases hunderway.stage id connection hconnection with
      | going _ _ hholds hoctets hrequests =>
          rw [hrequests]
          exact hfirst _ _ hholds hoctets
      | gaveUp _ hholds hoctets hrequests =>
          rw [hrequests]
          exact hfirst _ _ hholds hoctets
      | concluded _ hrequests =>
          rw [hrequests]

end Underway

end History

/-! ## Connections that are settled -/

namespace Connection

variable {connection : Connection}

/-- A connection has ended, or its handler waits for octets. -/
def Settled (limits : Limits) (connection : Connection) : Prop :=
  connection.isOpen = false ∨ (connection.stream.next limits Settings.readSize).1 = .waiting

instance (limits : Limits) (connection : Connection) : Decidable (connection.Settled limits) :=
  inferInstanceAs (Decidable (_ ∨ _))

/-- The handler of an open connection waits if there is neither a request nor a reason to
end the connection. -/
theorem Settled.waits {limits : Limits} (hsettled : connection.Settled limits)
    (hopen : connection.isOpen = true) (hsound : connection.stream.Sound limits) :
    Splits limits connection.stream.octets [] connection.stream.octets ∧
      lastReply? limits connection.stream.closed connection.stream.octets = none ∧
      connection.stream.closed = false := by
  have hwaiting := hsettled.resolve_left (by simp [hopen])
  obtain ⟨left, hnext, -⟩ := hsound.next (show 0 < Settings.readSize by decide)
  rw [hnext] at hwaiting
  obtain ⟨records, rest, hsplits⟩ := exists_splits limits connection.stream.octets
  cases records with
  | cons record records =>
      have hpartition := hsplits.partition
      rw [Record.joined_cons, List.append_assoc] at hpartition
      rw [hpartition, judge_record (hsplits.holds record List.mem_cons_self)] at hwaiting
      cases hwaiting
  | nil =>
      have hrest := hsplits.partition
      rw [Record.joined_nil, List.nil_append] at hrest
      rw [← hrest] at hsplits
      rw [judge_rest hsplits] at hwaiting
      cases hobstacle : obstacle? limits connection.stream.octets with
      | some error =>
          rw [hobstacle] at hwaiting
          cases hwaiting
      | none =>
          rw [hobstacle] at hwaiting
          cases hclosed : connection.stream.closed with
          | false => exact ⟨hsplits, by simp [lastReply?, lastWord?, hobstacle], rfl⟩
          | true =>
              rw [hclosed] at hwaiting
              simp only [Received.ofJudgement, Option.map_none, Option.getD_none] at hwaiting
              cases hempty : connection.stream.octets.isEmpty <;> simp [hempty] at hwaiting

/-- The handler of an open connection waits if it finds neither a request nor a reason to
end the connection. -/
theorem settled_of_waits {limits : Limits} (hsound : connection.stream.Sound limits)
    (hsplits : Splits limits connection.stream.octets [] connection.stream.octets)
    (hnone : lastReply? limits connection.stream.closed connection.stream.octets = none)
    (hclosed : connection.stream.closed = false) : connection.Settled limits := by
  obtain ⟨left, hnext, -⟩ := hsound.next (show 0 < Settings.readSize by decide)
  apply Or.inr
  rw [hnext, judge_rest hsplits]
  cases hobstacle : obstacle? limits connection.stream.octets with
  | some error => simp [lastReply?, lastWord?, hobstacle] at hnone
  | none => simp [Received.ofJudgement, hclosed]

/-- How much there is still to do on a connection. -/
def weight (connection : Connection) : Nat :=
  connection.stream.octets.length + connection.isOpen.toNat

end Connection

namespace Deployment

variable {deployment : Deployment} {id : Nat} {before after : Connection}

/-- A turn on a connection that is not settled leaves less to do. -/
theorem weight_turn (hwhole : deployment.server.logIsHalfClosed = false)
    (hbefore : deployment.connections[id]? = some before)
    (hsound : before.stream.Sound deployment.server.limits)
    (hunsettled : ¬ before.Settled deployment.server.limits)
    (hafter : (deployment.turn id).deployment.connections[id]? = some after) :
    after.weight < before.weight := by
  have hopen : before.isOpen = true := by
    cases hended : before.isOpen with
    | true => rfl
    | false => exact absurd (.inl hended) hunsettled
  cases passes_turn hwhole hbefore hopen hsound hafter with
  | delivered hevent => cases hevent
  | finished hevent => cases hevent
  | unchanged _ _ hturn => simp [hturn rfl] at hopen
  | @served transaction left _ _ hholds _ _ hoctets =>
      have hpositive : 0 < transaction.octets.length := List.length_pos_iff.mpr hholds.ne_nil
      have hlength := congrArg List.length hoctets
      rw [List.length_append] at hlength
      have hone := Bool.toNat_le
        ({ before with stream := left }.reply transaction.exchange.reply).1.isOpen
      have hweight : before.weight = before.stream.octets.length + 1 := by
        rw [Connection.weight, hopen, Bool.toNat_true]
      rw [hweight, Connection.weight, Connection.stream_reply]
      change left.octets.length + _ < _
      omega
  | @concluded left _ _ hleft hclosed hoctets hsplits =>
      have hends : (before.conclude deployment.server.limits left []).isOpen = false := by
        by_contra hstill
        apply hunsettled
        simp only [Connection.conclude, Bool.and_eq_true, Bool.not_eq_true',
          Option.isNone_iff_eq_none, Bool.not_eq_false, hclosed, hoctets] at hstill
        exact Connection.settled_of_waits hsound hsplits (hstill.1 ▸ hstill.2) hstill.1
      rw [Connection.weight, Connection.weight, hends, hopen]
      simp only [Connection.conclude, hoctets, Bool.toNat_true, Bool.toNat_false]
      omega

end Deployment

namespace History

variable {server : Server} {history : History} {events : List Event}

/-- A sum gets less if one of its members does. -/
theorem sum_set_lt {weights : List Nat} {index weight : Nat} (hindex : index < weights.length)
    (hless : weight < weights[index]) : (weights.set index weight).sum < weights.sum := by
  induction weights generalizing index with
  | nil => cases hindex
  | cons first weights ih =>
      cases index with
      | zero =>
          simp only [List.getElem_cons_zero] at hless
          simp only [List.set_cons_zero, List.sum_cons]
          omega
      | succ index =>
          simp only [List.getElem_cons_succ, List.length_cons, Nat.add_lt_add_iff_right]
            at hless hindex
          have hrest := ih hindex hless
          simp only [List.set_cons_succ, List.sum_cons]
          omega

/-- Turns enough settle all connections. -/
theorem exists_settled (hunderway : history.Underway server events)
    (horderly : Event.Orderly events) :
    ∃ ids : List Nat, ∀ connection ∈ (history.run (ids.map .turn)).deployment.connections,
      connection.Settled server.limits := by
  -- The induction is on what there is still to do on all connections together.
  generalize htotal : (history.deployment.connections.map Connection.weight).sum = total
  induction total using Nat.strongRecOn generalizing history events with
  | ind total ih =>
      by_cases hall : ∀ connection ∈ history.deployment.connections,
          connection.Settled server.limits
      · exact ⟨[], hall⟩
      obtain ⟨before, hmem, hunsettled⟩ : ∃ connection ∈ history.deployment.connections,
          ¬ connection.Settled server.limits := by
        simpa using hall
      obtain ⟨id, hlength, hget⟩ := List.getElem_of_mem hmem
      have hbefore : history.deployment.connections[id]? = some before :=
        List.getElem?_eq_some_iff.mpr ⟨hlength, hget⟩
      have hlimits := hunderway.answers.limits_eq
      have hset : (history.deployment.turn id).deployment.connections =
          history.deployment.connections.set id
            (history.deployment.server.turn before).connection := by
        simp only [Deployment.turn, hbefore, Outcome.quiet]
      have hless := Deployment.weight_turn hunderway.whole hbefore
        (hlimits ▸ hunderway.sound id before hbefore) (hlimits ▸ hunsettled)
        (by rw [hset, List.getElem?_set_self hlength])
      have hturn : Event.Orderly (events ++ [.turn id]) := by
        refine List.pairwise_append.mpr ⟨horderly, List.pairwise_singleton _ _, ?_⟩
        intro earlier _ later hlater
        rw [List.mem_singleton.mp hlater]
        cases earlier <;> rfl
      have hsum : ((history.step (.turn id)).deployment.connections.map
          Connection.weight).sum < total := by
        change ((history.deployment.turn id).deployment.connections.map
          Connection.weight).sum < total
        rw [hset, List.map_set, ← htotal]
        apply sum_set_lt (by rwa [List.length_map])
        rw [List.getElem_map, hget]
        exact hless
      obtain ⟨ids, hsettled⟩ := ih _ hsum (hunderway.step rfl hturn) hturn rfl
      exact ⟨id :: ids, hsettled⟩

end History

end DurableStore
