import DurableStore.Proofs.Server.Accounts

/-!
# Undisturbed runs

Every run without a restart has an undisturbed one beside it: the same clients
connect, but there are no faults, and what a client sends are the requests that have
been answered on its connection, each when its turn has come.  The same requests are
answered alike, the keyspace becomes the same, and the same is sent on every
connection, but for a last answer.

Main results:

- Definition `History.undisturbed`: the events that are left.
- Theorem `History.serve_alone`: a request that is sent when nothing waits is answered.
- Theorems `History.Follows.step` and `History.Follows.run`: the undisturbed run follows
  the other step by step.
-/

namespace DurableStore

/-! ## What is left of events -/

namespace Deployment

/-- What is left of an event when there are no faults and the clients send nothing but
the requests that are answered. -/
def undisturbed (deployment : Deployment) : Event → List Event
  | .connect peer => [.connect peer]
  | .turn id =>
      (deployment.answered (.turn id)).flatMap fun transaction =>
        [.deliver id transaction.octets, .turn id]
  | _ => []

end Deployment

namespace History

/-- What is left of events when there are no faults and the clients send nothing but the
requests that are answered. -/
def undisturbed (history : History) : List Event → List Event
  | [] => []
  | event :: events =>
      history.deployment.undisturbed event ++ (history.step event).undisturbed events

/-- Clients connect, send octets, and are served. -/
theorem mem_undisturbed {history : History} {events : List Event} {event : Event}
    (hevent : event ∈ history.undisturbed events) :
    (∃ peer, event = .connect peer) ∨ (∃ id octets, event = .deliver id octets) ∨
      ∃ id, event = .turn id := by
  induction events generalizing history with
  | nil => cases hevent
  | cons first events ih =>
      rcases List.mem_append.mp hevent with hfirst | hlater
      · cases first with
        | connect peer => exact .inl ⟨peer, List.mem_singleton.mp hfirst⟩
        | turn id =>
            obtain ⟨transaction, -, hpair⟩ := List.mem_flatMap.mp hfirst
            rcases List.mem_cons.mp hpair with hdeliver | hturn
            · exact .inr (.inl ⟨id, _, hdeliver⟩)
            · exact .inr (.inr ⟨id, List.mem_singleton.mp hturn⟩)
        | _ => cases hfirst
      · exact ih hlater

end History

/-! ## Connections -/

/-- The other connection has seen no fault, has received nothing but the requests that
were answered on this one, and has been sent the same replies. -/
structure Connection.Follows (limits : Limits) (connection calm : Connection) : Prop where
  octets_eq : calm.stream.octets = []
  sound : calm.stream.Sound limits
  reliable : calm.drainFails = false
  isOpen : connection.isOpen = true → calm.isOpen = true
  sent_eq : ∃ reason?, connection.sent.reverse = calm.sent.reverse ++ lastOutput reason? ∧
    (connection.isOpen = true → reason? = none)

namespace History

/-- The other history is one without faults in which the same requests are answered. -/
structure Follows (limits : Limits) (history calm : History) : Prop where
  limits_eq : calm.deployment.server.limits = limits
  whole : calm.deployment.server.logIsHalfClosed = false
  exchanges_eq : calm.exchanges = history.exchanges
  keyspace_eq : calm.deployment.server.keyspace = history.deployment.server.keyspace
  received_eq : ∀ id, calm.received id =
    Record.joined ((Transaction.on id history.transactions).map Transaction.record)
  length_eq : calm.deployment.connections.length = history.deployment.connections.length
  connections : ∀ (id : Nat) (connection : Connection),
    history.deployment.connections[id]? = some connection →
    ∃ other : Connection, calm.deployment.connections[id]? = some other ∧
      connection.Follows limits other

end History

namespace Connection.Follows

variable {limits : Limits} {before after calm : Connection}

/-- A connection on which a request is answered is followed by one on which it is
answered, too. -/
theorem served (hfollows : before.Follows limits calm) (hopen : before.isOpen = true)
    (left : Stream) {left' : Stream} (hsound : left'.Sound limits) (hempty : left'.octets = [])
    (reply : Value) :
    ({ before with stream := left }.reply reply).1.Follows limits
      ({ calm with stream := left' }.reply reply).1 := by
  obtain ⟨-, -, hreliable, hstays, reason?, hsent, hreason⟩ := hfollows
  rw [hreason hopen] at hsent
  unfold Connection.reply
  cases reply.encode with
  | error error =>
      exact ⟨hempty, hsound, hreliable, fun hyes => (nomatch hyes),
        none, hsent, fun hyes => (nomatch hyes)⟩
  | ok octets =>
      refine ⟨hempty, hsound, hreliable, fun _ => ?_, none, ?_, fun _ => rfl⟩
      · simp [write, hstays hopen, hreliable]
      · simpa [write, lastOutput] using hsent

/-- A connection on which nothing is answered is followed by one on which nothing
happens. -/
theorem silent (hfollows : before.Follows limits calm) {deployment : Deployment} {event : Event}
    {id : Nat} (hmoves : deployment.Moves event id before after)
    (hanswered : Transaction.on id (deployment.answered event) = []) :
    after.Follows limits calm := by
  obtain ⟨hempty, hsound, hreliable, hstays, reason?, hsent, hreason⟩ := hfollows
  cases hmoves with
  | quiet hquiet _ =>
      refine ⟨hempty, hsound, hreliable, fun hopen => hstays (hquiet.isOpen hopen), reason?, ?_,
        fun hopen => hreason (hquiet.isOpen hopen)⟩
      rw [hquiet.sent_eq, hsent]
  | served _ _ _ _ _ hsome =>
      rw [hanswered] at hsome
      cases hsome
  | @concluded left _ hopen _ _ _ =>
      obtain ⟨last?, hlast, hends⟩ := before.conclude_spec deployment.server.limits left
      refine ⟨hempty, hsound, hreliable, fun _ => hstays hopen, last?, ?_, hends⟩
      rw [hlast, hsent, hreason hopen]
      exact congrArg (· ++ lastOutput last?) (List.append_nil _)

end Connection.Follows

/-! ## Steps and runs -/

/-- A client sends a request when nothing waits, and is served. -/
theorem History.serve_alone (history : History) {id : Nat} {connection : Connection}
    (hwhole : history.deployment.server.logIsHalfClosed = false)
    (hconnection : history.deployment.connections[id]? = some connection)
    (hopen : connection.isOpen = true)
    (hsound : connection.stream.Sound history.deployment.server.limits)
    (hempty : connection.stream.octets = []) {record : Record}
    (hholds : record.Holds history.deployment.server.limits) :
    ∃ left : Stream, left.octets = [] ∧ left.Sound history.deployment.server.limits ∧
      (history.run [.deliver id record.octets, .turn id]).exchanges = history.exchanges ++
        [⟨id, record.value, (history.deployment.server.process record.value).reply⟩] ∧
      (history.run [.deliver id record.octets, .turn id]).deployment.server =
        (history.deployment.server.process record.value).server ∧
      (∀ other, (history.run [.deliver id record.octets, .turn id]).received other =
        if id = other then history.received other ++ record.octets else history.received other) ∧
      (history.run [.deliver id record.octets, .turn id]).deployment.connections.length =
        history.deployment.connections.length ∧
      ∀ other, (history.run [.deliver id record.octets, .turn id]).deployment.connections[other]? =
        if id = other then
          some ({ connection with stream := left }.reply
            (history.deployment.server.process record.value).reply).1
        else history.deployment.connections[other]? := by
  have hlength := (List.getElem?_eq_some_iff.mp hconnection).1
  -- The deployment after the octets have arrived.
  have harrived : (history.step (.deliver id record.octets)).deployment.connections =
      history.deployment.connections.modify id fun other => other.deliver record.octets := rfl
  have hreached : (history.step (.deliver id record.octets)).deployment.connections[id]? =
      some { connection with stream := connection.stream.feed record.octets } := by
    rw [harrived, List.getElem?_modify, hconnection]
    simp [Connection.deliver, hopen]
  have hwaiting : (connection.stream.feed record.octets).octets = record.octets ++ [] := by
    rw [Stream.octets] at hempty
    rw [Stream.octets, Stream.feed, ← List.append_assoc, hempty, List.nil_append, List.append_nil]
  have hstill : (history.step (.deliver id record.octets)).deployment.server.logIsHalfClosed =
      false := hwhole
  obtain ⟨left, hleft, hsafe, hanswered, hset, hserver⟩ :=
    Deployment.answered_of_holds hstill hreached hopen hsound hholds hwaiting
  refine ⟨left, hleft, hsafe, ?_, hserver, fun other => ?_, ?_, fun other => ?_⟩
  · change ((history.transactions ++ []) ++
      (history.step (.deliver id record.octets)).deployment.answered (.turn id)).map
        Transaction.exchange = _
    rw [hanswered, List.append_nil, List.map_append]
    rfl
  · change (history.received other ++ if id = other ∧
      history.deployment.connections[other]?.any Connection.isOpen then record.octets else []) ++
        [] = _
    rw [List.append_nil]
    by_cases hsame : id = other
    · simp only [← hsame, hconnection, Option.any_some, hopen, and_self, if_true]
    · simp only [hsame, false_and, if_false, List.append_nil]
  · change ((history.step (.deliver id record.octets)).deployment.turn
      id).deployment.connections.length = _
    rw [hset, List.length_set, harrived, List.length_modify]
  · change ((history.step (.deliver id record.octets)).deployment.turn
      id).deployment.connections[other]? = _
    rw [hset, List.getElem?_set, harrived, List.length_modify, List.getElem?_modify]
    by_cases hsame : id = other
    · rw [if_pos hsame, if_pos hsame, if_pos hlength]
      rfl
    · simp only [hsame, if_false, Option.map_eq_map, Option.map_id']

namespace History.Follows

variable {limits : Limits} {server : Server} {history calm : History} {event : Event}

/-- Nothing has happened at first. -/
theorem start (hwhole : server.logIsHalfClosed = false) (volume : Volume) :
    (History.start server volume).Follows server.limits (.start server volume) where
  limits_eq := rfl
  whole := hwhole
  exchanges_eq := rfl
  keyspace_eq := rfl
  received_eq _ := rfl
  length_eq := rfl
  connections _ _ hconnection := by simp [History.start, Deployment.ofServer] at hconnection

/-- A connection on which nothing is answered is followed as before. -/
theorem elsewhere (hfollows : history.Follows limits calm) (haccounted : history.Accounted limits)
    (hlimits : history.deployment.server.limits = limits)
    (hwhole : history.deployment.server.logIsHalfClosed = false) (hevent : event ≠ .restart)
    (hconnect : ∀ peer, event ≠ .connect peer) {id : Nat} {after : Connection}
    (hanswered : Transaction.on id (history.deployment.answered event) = [])
    (hafter : (history.step event).deployment.connections[id]? = some after) :
    ∃ other : Connection, calm.deployment.connections[id]? = some other ∧
      after.Follows limits other := by
  cases hbefore : history.deployment.connections[id]? with
  | none =>
      obtain ⟨peer, hpeer, -⟩ := Deployment.newcomer hevent hbefore hafter
      exact absurd hpeer (hconnect peer)
  | some before =>
      obtain ⟨other, hother, hboth⟩ := hfollows.connections id before hbefore
      have hsound := (haccounted.connections id before hbefore).sound
      have hmoves := Deployment.moves hevent hwhole hbefore (hlimits ▸ hsound) hafter
      exact ⟨other, hother, hboth.silent hmoves hanswered⟩

/-- An event with which nothing is answered need not take place. -/
theorem silent (hfollows : history.Follows limits calm) (haccounted : history.Accounted limits)
    (hlimits : history.deployment.server.limits = limits)
    (hwhole : history.deployment.server.logIsHalfClosed = false) (hevent : event ≠ .restart)
    (hconnect : ∀ peer, event ≠ .connect peer) (hanswered : history.deployment.answered event = [])
    (hkeyspace : (history.deployment.step event).deployment.server.keyspace =
      history.deployment.server.keyspace) :
    (history.step event).Follows limits calm := by
  have hnone : (history.step event).transactions = history.transactions := by
    rw [History.step, hanswered, List.append_nil]
  refine ⟨hfollows.limits_eq, hfollows.whole, ?_, hfollows.keyspace_eq.trans hkeyspace.symm,
    ?_, ?_, ?_⟩
  · exact hfollows.exchanges_eq.trans (congrArg (List.map Transaction.exchange) hnone).symm
  · rw [hnone]
    exact hfollows.received_eq
  · exact hfollows.length_eq.trans (Deployment.length_step hevent hconnect).symm
  · intro id after hafter
    refine hfollows.elsewhere haccounted hlimits hwhole hevent hconnect ?_ hafter
    rw [hanswered, Transaction.on_nil]

/-- A client connects. -/
theorem connect (hfollows : history.Follows limits calm) (peer : String) :
    (history.step (.connect peer)).Follows limits (calm.step (.connect peer)) := by
  have hnone : ∀ other : History, (other.step (.connect peer)).transactions =
      other.transactions := fun _ => List.append_nil _
  have hconnections : ∀ other : History, (other.step (.connect peer)).deployment.connections =
      other.deployment.connections ++ [.fresh peer] := fun _ => rfl
  refine ⟨hfollows.limits_eq, hfollows.whole, ?_, hfollows.keyspace_eq, fun id => ?_, ?_, ?_⟩
  · rw [exchanges, exchanges, hnone, hnone]
    exact hfollows.exchanges_eq
  · rw [hnone, ← hfollows.received_eq id]
    exact List.append_nil _
  · rw [hconnections, hconnections, List.length_append, List.length_append, hfollows.length_eq]
  · intro id connection hconnection
    rw [hconnections, List.getElem?_append] at hconnection ⊢
    rw [hfollows.length_eq]
    split at hconnection
    · rename_i hold
      rw [if_pos hold]
      exact hfollows.connections id connection hconnection
    · rename_i hnew
      rw [if_neg hnew]
      refine ⟨connection, hconnection, ?_⟩
      obtain rfl := List.mem_singleton.mp (List.mem_of_getElem? hconnection)
      exact ⟨rfl, Receiver.sound_empty, rfl, fun hopen => hopen, none, rfl, fun _ => rfl⟩

/-- A request is answered. -/
theorem turn (hfollows : history.Follows limits calm) (haccounted : history.Accounted limits)
    (hlimits : history.deployment.server.limits = limits)
    (hwhole : history.deployment.server.logIsHalfClosed = false) {id : Nat} {request : Value}
    {octets : Bytes} (hanswered : history.deployment.answered (.turn id) =
      [⟨⟨id, request, (history.deployment.server.process request).reply⟩, octets,
        history.deployment.server.records request⟩])
    (hafter : (history.deployment.turn id).deployment.server =
      (history.deployment.server.process request).server) :
    (history.step (.turn id)).Follows limits (calm.run [.deliver id octets, .turn id]) := by
  have hevent : Event.turn id ≠ .restart := by simp
  obtain ⟨before, left, hbefore, hopen, hholds, hone⟩ :=
    Deployment.served_of_answered hwhole hanswered fun connection hconnection =>
      hlimits ▸ (haccounted.connections id connection hconnection).sound
  obtain ⟨other, hother, hboth⟩ := hfollows.connections id before hbefore
  have hrecord : (Record.mk request octets).Holds calm.deployment.server.limits := by
    rw [hfollows.limits_eq, ← hlimits]
    exact hholds
  obtain ⟨left', hempty, hsafe, hexchanges, hserver, hreceived, hlength, hconnections⟩ :=
    calm.serve_alone hfollows.whole hother (hboth.isOpen hopen) (hfollows.limits_eq ▸ hboth.sound)
      hboth.octets_eq hrecord
  obtain ⟨hreply, hkeyspace⟩ := Server.process_congr hfollows.keyspace_eq.symm request
  have htransactions : (history.step (.turn id)).transactions = history.transactions ++
      [⟨⟨id, request, (history.deployment.server.process request).reply⟩, octets,
        history.deployment.server.records request⟩] := by
    rw [History.step, hanswered]
  refine ⟨?_, ?_, ?_, ?_, fun id' => ?_, ?_, fun id' last hlast => ?_⟩
  · rw [hserver, (calm.deployment.server.process_cases request).1]
    exact hfollows.limits_eq
  · rw [hserver, Server.logIsHalfClosed_process]
    exact hfollows.whole
  · rw [hexchanges, hfollows.exchanges_eq, exchanges, exchanges, htransactions,
      List.map_append, hreply]
    rfl
  · rw [hserver, ← hkeyspace]
    exact (congrArg Server.keyspace hafter).symm
  · rw [hreceived, hfollows.received_eq, htransactions, Transaction.on_append,
      Transaction.on_singleton, List.map_append, Record.joined_append]
    by_cases hsame : id = id'
    · simp [hsame, Transaction.record]
    · simp [hsame]
  · rw [hlength, hfollows.length_eq]
    exact (Deployment.length_step hevent (by simp)).symm
  · by_cases hsame : id = id'
    · subst hsame
      obtain rfl := Option.some.inj (hone.symm.trans hlast)
      rw [hconnections, if_pos rfl, ← hreply]
      exact ⟨_, rfl, hboth.served hopen _ (hfollows.limits_eq ▸ hsafe) hempty _⟩
    · rw [hconnections, if_neg hsame]
      refine hfollows.elsewhere haccounted hlimits hwhole hevent (by simp) ?_ hlast
      rw [hanswered, Transaction.on_singleton, if_neg hsame]

/-- What is left of an event follows it. -/
theorem step (hfollows : history.Follows limits calm) (haccounted : history.Accounted limits)
    (hlimits : history.deployment.server.limits = limits)
    (hwhole : history.deployment.server.logIsHalfClosed = false) (hevent : event ≠ .restart) :
    (history.step event).Follows limits (calm.run (history.deployment.undisturbed event)) := by
  by_cases hconnect : ∃ peer, event = .connect peer
  · obtain ⟨peer, rfl⟩ := hconnect
    exact hfollows.connect peer
  by_cases hturn : ∃ id, event = .turn id
  · obtain ⟨id, rfl⟩ := hturn
    rcases history.deployment.answered_turn id with
      ⟨hnothing, hserver⟩ | ⟨request, octets, hanswered, hserver⟩
    · have hnone : history.deployment.undisturbed (.turn id) = [] := by
        rw [Deployment.undisturbed, hnothing, List.flatMap_nil]
      rw [hnone]
      exact hfollows.silent haccounted hlimits hwhole hevent (fun peer hpeer => nomatch hpeer)
        hnothing (congrArg Server.keyspace hserver)
    · have hpair : history.deployment.undisturbed (.turn id) = [.deliver id octets, .turn id] := by
        rw [Deployment.undisturbed, hanswered, List.flatMap_singleton]
      rw [hpair]
      exact hfollows.turn haccounted hlimits hwhole hanswered hserver
  · have hother : ∀ id, event ≠ .turn id := fun id hid => hturn ⟨id, hid⟩
    have hnothing : history.deployment.answered event = [] := Deployment.answered_eq_nil hother
    have hnone : history.deployment.undisturbed event = [] := by
      cases event with
      | connect peer => exact absurd ⟨peer, rfl⟩ hconnect
      | turn id => exact absurd rfl (hother id)
      | _ => rfl
    rw [hnone]
    exact hfollows.silent haccounted hlimits hwhole hevent
      (fun peer hpeer => hconnect ⟨peer, hpeer⟩) hnothing (Deployment.step_frame hevent hother).1

/-- What is left of events follows them. -/
theorem run (hfollows : history.Follows server.limits calm) (hanswers : history.Answers server)
    (haccounted : history.Accounted server.limits) {events : List Event}
    (hevents : ∀ event ∈ events, event ≠ .restart) (hintact : history.Intact events) :
    (history.run events).Follows server.limits (calm.run (history.undisturbed events)) := by
  induction events generalizing history calm with
  | nil => exact hfollows
  | cons event events ih =>
      obtain ⟨hevent, hrest⟩ := List.forall_mem_cons.mp hevents
      obtain ⟨hwhole, hlater⟩ := Intact.cons_iff.mp hintact
      rw [undisturbed, run_append]
      exact ih (hfollows.step haccounted hanswers.limits_eq hwhole hevent) (hanswers.step hevent)
        (haccounted.step hanswers.limits_eq hwhole hevent) hrest hlater

end History.Follows

end DurableStore
