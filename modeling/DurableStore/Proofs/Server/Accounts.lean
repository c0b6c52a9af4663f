import DurableStore.Proofs.Server.Histories

/-!
# Accounts of connections

At every point of a history, the octets that have arrived on a connection are those of
the requests answered on it, one behind the other, and those that still wait; and what
has been sent on it are the replies to these requests, and a last answer if it has
ended.  What an event can do to a connection is said once, by `Deployment.moves`, and
everything else is derived from that.

Main results:

- Definition `Deployment.Moves` and theorem `Deployment.moves`: what an event can do to a
  connection.
- Theorem `History.Answers.run`: requests are answered one after the other.
- Structure `Connection.Accounts`: what has been received on a connection and sent on
  it, in terms of the requests answered.
- Theorems `History.Accounted.step` and `History.Accounted.run`: every event and every
  run keep account of all connections.
- Theorem `History.Ended.of_run`: nothing happens on a connection that has ended.
-/

namespace DurableStore

/-! ## Connections -/

/-- The replies that have a written form, in that form. -/
def Exchange.outputs (exchanges : List Exchange) : List Bytes :=
  exchanges.filterMap fun exchange => exchange.reply.encode.toOption

namespace Transaction

/-- There are no requests among none. -/
@[simp] theorem on_nil (id : Nat) : on id [] = [] :=
  rfl

/-- A request is on its connection only. -/
theorem on_singleton (id : Nat) (transaction : Transaction) :
    on id [transaction] = if transaction.exchange.id = id then [transaction] else [] := by
  simp [on, List.filter_cons]

/-- The exchanges of the requests on a connection are the exchanges on it. -/
theorem map_exchange_on (id : Nat) (transactions : List Transaction) :
    (on id transactions).map exchange = Exchange.on id (transactions.map exchange) := by
  rw [on, Exchange.on, List.filter_map]
  rfl

/-- The requests on a connection and later ones. -/
theorem on_append (id : Nat) (transactions later : List Transaction) :
    on id (transactions ++ later) = on id transactions ++ on id later :=
  List.filter_append ..

end Transaction

/-- The last answer on a connection in its written form, if there is one. -/
def lastOutput (reason? : Option String) : List Bytes :=
  (reason?.map fun reason => (Reply.protocolError reason).wire).toList

namespace Connection

variable {limits : Limits} {received : Bytes} {transactions : List Transaction}
  {connection : Connection}

/-- A connection on which no request is found is sent nothing but a last answer, with
which it ends. -/
theorem conclude_spec (limits : Limits) (left : Stream) (connection : Connection) :
    ∃ reason?, (connection.conclude limits left []).sent.reverse =
        connection.sent.reverse ++ lastOutput reason? ∧
      ((connection.conclude limits left []).isOpen = true → reason? = none) := by
  refine ⟨lastWord? limits left.closed left.octets, ?_, fun hopen => ?_⟩
  · simp only [conclude, lastReply?]
    cases lastWord? limits left.closed left.octets <;> simp [lastOutput]
  · simp only [conclude, lastReply?, Option.isNone_map, Bool.and_eq_true,
      Option.isNone_iff_eq_none] at hopen
    exact hopen.2

/-- Octets arrive on a connection, and nothing is answered; it may have ended
thereby. -/
structure Quiet (octets : Bytes) (before after : Connection) : Prop where
  sent_eq : after.sent = before.sent
  isOpen : after.isOpen = true → before.isOpen = true
  sound : ∀ limits, before.stream.Sound limits → after.stream.Sound limits
  octets_eq : after.isOpen = true → after.stream.octets = before.stream.octets ++ octets

/-- Octets that arrive wait, unless the connection has ended. -/
theorem quiet_deliver (connection : Connection) (octets : Bytes) :
    connection.Quiet (if connection.isOpen then octets else []) (connection.deliver octets) := by
  unfold deliver
  by_cases hopen : connection.isOpen = true
  · rw [if_pos hopen, if_pos hopen]
    refine ⟨rfl, fun _ => hopen, fun _ hsound => hsound, fun _ => ?_⟩
    rw [Stream.octets, Stream.octets, Stream.feed, List.append_assoc]
  · rw [if_neg hopen, if_neg hopen]
    exact ⟨rfl, id, fun _ hsound => hsound, fun hyes => absurd hyes hopen⟩

/-- A connection that is left alone, or ends, or whose client sends nothing more or is
found to be gone. -/
theorem quiet_others (connection : Connection) :
    connection.Quiet [] connection ∧ connection.Quiet [] connection.close ∧
      connection.Quiet [] connection.finish ∧ connection.Quiet [] connection.breakDrain := by
  have hsame : connection.stream.octets = connection.stream.octets ++ [] :=
    (List.append_nil _).symm
  exact ⟨⟨rfl, id, fun _ hsound => hsound, fun _ => hsame⟩,
    ⟨rfl, fun hopen => (nomatch hopen), fun _ hsound => hsound, fun _ => hsame⟩,
    ⟨rfl, id, fun _ hsound => hsound, fun _ => hsame⟩,
    ⟨rfl, id, fun _ hsound => hsound, fun _ => hsame⟩⟩

/-- What is known of a connection on which these octets have arrived and these requests
have been answered. -/
structure Accounts (limits : Limits) (received : Bytes) (transactions : List Transaction)
    (connection : Connection) : Prop where
  holds : ∀ transaction ∈ transactions, transaction.record.Holds limits
  sound : connection.stream.Sound limits
  /-- The octets are those of the requests and those that still wait. -/
  received_eq : ∃ rest, received = Record.joined (transactions.map Transaction.record) ++ rest ∧
    (connection.isOpen = true → connection.stream.octets = rest)
  /-- The replies have been sent, and a last answer if the connection has ended. -/
  sent_eq : ∃ reason?, connection.sent.reverse =
      Exchange.outputs (transactions.map Transaction.exchange) ++ lastOutput reason? ∧
    (connection.isOpen = true → reason? = none)

namespace Accounts

/-- Nothing has happened on a connection at first. -/
theorem fresh (limits : Limits) (peer : String) :
    (Connection.fresh peer).Accounts limits [] [] where
  holds := by simp
  sound := Receiver.sound_empty
  received_eq := ⟨[], rfl, fun _ => rfl⟩
  sent_eq := ⟨none, rfl, fun _ => rfl⟩

/-- Nothing is answered. -/
theorem quiet (haccounts : connection.Accounts limits received transactions) {octets : Bytes}
    {after : Connection} (hquiet : connection.Quiet octets after) :
    after.Accounts limits (received ++ octets) transactions := by
  obtain ⟨hholds, hsound, ⟨rest, hreceived, hrest⟩, reason?, hsent, hreason⟩ := haccounts
  refine ⟨hholds, hquiet.sound _ hsound, ⟨rest ++ octets, ?_, fun hopen => ?_⟩,
    reason?, ?_, fun hopen => hreason (hquiet.isOpen hopen)⟩
  · rw [hreceived, List.append_assoc]
  · rw [hquiet.octets_eq hopen, hrest (hquiet.isOpen hopen)]
  · rw [hquiet.sent_eq, hsent]

/-- A request is answered. -/
theorem served (haccounts : connection.Accounts limits received transactions)
    (hopen : connection.isOpen = true) {transaction : Transaction} {left : Stream}
    (hholds : transaction.record.Holds limits) (hsafe : left.Sound limits)
    (hoctets : connection.stream.octets = transaction.octets ++ left.octets) :
    ({ connection with stream := left }.reply transaction.exchange.reply).1.Accounts limits
      received (transactions ++ [transaction]) := by
  obtain ⟨holder, -, ⟨rest, hreceived, hrest⟩, reason?, hsent, hreason⟩ := haccounts
  have hall : ∀ other ∈ transactions ++ [transaction], other.record.Holds limits := by
    intro other hother
    rcases List.mem_append.mp hother with hold | hnew
    · exact holder other hold
    · rw [List.mem_singleton.mp hnew]
      exact hholds
  have hpartition : received =
      Record.joined ((transactions ++ [transaction]).map Transaction.record) ++ left.octets := by
    rw [hreceived, ← hrest hopen, hoctets, List.map_append, Record.joined_append,
      List.append_assoc]
    simp [Transaction.record]
  rw [hreason hopen] at hsent
  unfold Connection.reply
  cases hencode : transaction.exchange.reply.encode with
  | error error =>
      refine ⟨hall, hsafe, ⟨_, hpartition, fun hyes => nomatch hyes⟩, none, ?_,
        fun hyes => nomatch hyes⟩
      simp [Connection.close, hsent, Exchange.outputs, hencode, Except.toOption]
  | ok octets =>
      refine ⟨hall, hsafe, ⟨_, hpartition, fun _ => rfl⟩, none, ?_, fun _ => rfl⟩
      simp [write, hsent, Exchange.outputs, hencode, Except.toOption, lastOutput]

/-- No request is found. -/
theorem conclude (haccounts : connection.Accounts limits received transactions)
    (hopen : connection.isOpen = true) {left : Stream} (hsafe : left.Sound limits)
    (hoctets : left.octets = connection.stream.octets) :
    (connection.conclude limits left []).Accounts limits received transactions := by
  obtain ⟨hholds, -, ⟨rest, hreceived, hrest⟩, reason?, hsent, hreason⟩ := haccounts
  obtain ⟨last?, hlast, hends⟩ := connection.conclude_spec limits left
  refine ⟨hholds, hsafe, ⟨rest, hreceived, fun _ => hoctets.trans (hrest hopen)⟩,
    last?, ?_, hends⟩
  -- Nothing has ended the connection before.
  rw [hlast, hsent, hreason hopen]
  exact congrArg (· ++ lastOutput last?) (List.append_nil _)

end Accounts

end Connection

/-! ## What an event does to a connection -/

namespace Deployment

variable {deployment : Deployment} {event : Event}

/-- An operation on the log concerns neither connections nor keyspace. -/
theorem actOnLog_frame (deployment : Deployment) (act : Log → Volume → LogStep LogError) :
    (deployment.actOnLog act).deployment.connections = deployment.connections ∧
      (deployment.actOnLog act).deployment.server.keyspace = deployment.server.keyspace ∧
      (deployment.actOnLog act).deployment.server.limits = deployment.server.limits := by
  unfold actOnLog
  split <;> exact ⟨rfl, rfl, rfl⟩

/-- Only turns and restarts concern the keyspace. -/
theorem step_frame (hevent : event ≠ .restart) (hturn : ∀ id, event ≠ .turn id) :
    (deployment.step event).deployment.server.keyspace = deployment.server.keyspace ∧
      (deployment.step event).deployment.server.limits = deployment.server.limits := by
  cases event with
  | turn id => exact absurd rfl (hturn id)
  | restart => exact absurd rfl hevent
  | flush => exact (deployment.actOnLog_frame _).2
  | closeLog => exact (deployment.actOnLog_frame _).2
  | start =>
      simp only [step, start]
      split <;> exact ⟨rfl, rfl⟩
  | crash id reason =>
      simp only [step, crash]
      split <;> exact ⟨rfl, rfl⟩
  | _ => exact ⟨rfl, rfl⟩

/-- Nothing arrives in a turn. -/
theorem arriving_turn (deployment : Deployment) (id other : Nat) :
    deployment.arriving id (.turn other) = [] :=
  rfl

/-- What an event can do to a connection, and what is answered on it. -/
inductive Moves (deployment : Deployment) (event : Event) (id : Nat) (before : Connection) :
    Connection → Prop
  /-- Nothing is answered. -/
  | quiet {after : Connection} (hquiet : before.Quiet (deployment.arriving id event) after)
      (hanswered : Transaction.on id (deployment.answered event) = []) :
      Moves deployment event id before after
  /-- A request is answered. -/
  | served {transaction : Transaction} {left : Stream} (hevent : event = .turn id)
      (hopen : before.isOpen = true)
      (hholds : transaction.record.Holds deployment.server.limits)
      (hsound : left.Sound deployment.server.limits)
      (hoctets : before.stream.octets = transaction.octets ++ left.octets)
      (hanswered : Transaction.on id (deployment.answered event) = [transaction]) :
      Moves deployment event id before
        ({ before with stream := left }.reply transaction.exchange.reply).1
  /-- No request is found. -/
  | concluded {left : Stream} (hevent : event = .turn id) (hopen : before.isOpen = true)
      (hsound : left.Sound deployment.server.limits) (hoctets : left.octets = before.stream.octets)
      (hanswered : Transaction.on id (deployment.answered event) = []) :
      Moves deployment event id before (before.conclude deployment.server.limits left [])

variable {id : Nat} {before after : Connection}

/-- Nothing is answered on a connection when a connection is changed silently. -/
theorem moves_modify (hbefore : deployment.connections[id]? = some before) {other : Nat}
    {change : Connection → Connection} {octets : Bytes}
    (hafter : (deployment.connections.modify other change)[id]? = some after)
    (hanswered : deployment.answered event = [])
    (harriving : deployment.arriving id event = if other = id then octets else [])
    (hchange : before.Quiet octets (change before)) : Moves deployment event id before after := by
  refine .quiet ?_ (by rw [hanswered, Transaction.on_nil])
  rw [List.getElem?_modify, hbefore] at hafter
  obtain rfl := Option.some.inj hafter
  rw [harriving]
  by_cases hsame : other = id
  · simpa only [hsame, if_true] using hchange
  · simpa only [hsame, if_false] using before.quiet_others.1

/-- A turn of a handler answers a request on its connection, or gives the last answer, or
does nothing. -/
theorem moves_turn (hwhole : deployment.server.logIsHalfClosed = false)
    (hbefore : deployment.connections[id]? = some before)
    (hsound : before.stream.Sound deployment.server.limits) {other : Nat}
    (hafter : (deployment.turn other).deployment.connections[id]? = some after) :
    Moves deployment (.turn other) id before after := by
  have hid : ∀ transaction ∈ deployment.answered (.turn other),
      transaction.exchange.id = other := fun transaction htransaction =>
    (Event.turn.inj (mem_answered htransaction).1).symm
  have hlength := (List.getElem?_eq_some_iff.mp hbefore).1
  by_cases hsame : other = id
  · subst hsame
    have hall : Transaction.on other (deployment.answered (.turn other)) =
        deployment.answered (.turn other) :=
      List.filter_eq_self.mpr fun transaction htransaction => by
        simpa using hid transaction htransaction
    by_cases hopen : before.isOpen = true
    · rcases deployment.answered_takes hwhole hbefore hopen hsound with
        ⟨transaction, left, hholds, hsafe, hoctets, -, hanswered, hset⟩ |
        ⟨left, hsafe, hoctets, hanswered, hset⟩
      all_goals
        rw [hset, List.getElem?_set, if_pos rfl, if_pos hlength] at hafter
        obtain rfl := Option.some.inj hafter
      · exact .served rfl hopen hholds hsafe hoctets (hall.trans hanswered)
      · exact .concluded rfl hopen hsafe hoctets (hall.trans hanswered)
    · have hturn : deployment.server.turn before = ⟨.idle, deployment.server, before, []⟩ :=
        Server.turn_closed (Bool.not_eq_true _ ▸ hopen)
      simp only [turn, hbefore, Outcome.quiet, hturn, List.getElem?_set, if_pos hlength,
        if_true] at hafter
      obtain rfl := Option.some.inj hafter
      refine .quiet before.quiet_others.1 ?_
      rw [hall]
      simp only [answered, hbefore, hturn]
  · have hnone : Transaction.on id (deployment.answered (.turn other)) = [] :=
      List.filter_eq_nil_iff.mpr fun transaction htransaction => by
        simpa [hid transaction htransaction] using hsame
    refine .quiet ?_ hnone
    have hset : ∃ last, (deployment.turn other).deployment.connections =
        deployment.connections.set other last ∨
          (deployment.turn other).deployment.connections = deployment.connections := by
      unfold turn
      split
      · exact ⟨before, .inr rfl⟩
      · exact ⟨_, .inl rfl⟩
    have hkept : after = before := by
      obtain ⟨last, hset | hset⟩ := hset
      · rw [hset, List.getElem?_set, if_neg hsame, hbefore] at hafter
        exact (Option.some.inj hafter).symm
      · rw [hset, hbefore] at hafter
        exact (Option.some.inj hafter).symm
    rw [hkept]
    exact before.quiet_others.1

/-- What every event but a restart can do to a connection, unless the log is half closed. -/
theorem moves (hevent : event ≠ .restart) (hwhole : deployment.server.logIsHalfClosed = false)
    (hbefore : deployment.connections[id]? = some before)
    (hsound : before.stream.Sound deployment.server.limits)
    (hafter : (deployment.step event).deployment.connections[id]? = some after) :
    Moves deployment event id before after := by
  obtain ⟨hleft, hclosed, hfinished, hbroken⟩ := before.quiet_others
  have hkept : (deployment.step event).deployment.connections = deployment.connections →
      deployment.answered event = [] → deployment.arriving id event = [] →
      Moves deployment event id before after := by
    intro hsame hanswered harriving
    rw [hsame, hbefore] at hafter
    obtain rfl := Option.some.inj hafter
    exact .quiet (harriving ▸ hleft) (by rw [hanswered, Transaction.on_nil])
  cases event with
  | turn other => exact moves_turn hwhole hbefore hsound hafter
  | restart => exact absurd rfl hevent
  | deliver other octets =>
      refine moves_modify hbefore hafter rfl ?_ (before.quiet_deliver octets)
      simp only [arriving, hbefore, Option.any_some]
      cases before.isOpen <;> simp
  | finish other => exact moves_modify hbefore hafter rfl (ite_self []).symm hfinished
  | reset other => exact moves_modify hbefore hafter rfl (ite_self []).symm hclosed
  | breakDrain other => exact moves_modify hbefore hafter rfl (ite_self []).symm hbroken
  | crash other reason =>
      simp only [step, crash] at hafter
      split at hafter
      · rw [Outcome.quiet, hbefore] at hafter
        obtain rfl := Option.some.inj hafter
        exact .quiet hleft rfl
      · exact moves_modify hbefore hafter rfl (ite_self []).symm hclosed
  | stop =>
      change (deployment.connections.map Connection.close)[id]? = some after at hafter
      rw [List.getElem?_map, hbefore] at hafter
      obtain rfl := Option.some.inj hafter
      exact .quiet hclosed rfl
  | connect peer =>
      change (deployment.connections ++ [Connection.fresh peer])[id]? = some after at hafter
      rw [List.getElem?_append_left (List.getElem?_eq_some_iff.mp hbefore).1, hbefore] at hafter
      obtain rfl := Option.some.inj hafter
      exact .quiet hleft rfl
  | start =>
      refine hkept ?_ rfl rfl
      simp only [step, start]
      split <;> rfl
  | flush => exact hkept (deployment.actOnLog_frame _).1 rfl rfl
  | closeLog => exact hkept (deployment.actOnLog_frame _).1 rfl rfl
  | obstruct faults => exact hkept rfl rfl rfl
  | setSyncFails fails => exact hkept rfl rfl rfl

/-- There are as many connections as before, unless a client connects. -/
theorem length_step (hevent : event ≠ .restart) (hconnect : ∀ peer, event ≠ .connect peer) :
    (deployment.step event).deployment.connections.length = deployment.connections.length := by
  cases event with
  | turn id =>
      simp only [step, turn]
      split
      · rfl
      · exact List.length_set
  | restart => exact absurd rfl hevent
  | connect peer => exact absurd rfl (hconnect peer)
  | stop => exact List.length_map _
  | flush => exact congrArg List.length (deployment.actOnLog_frame _).1
  | closeLog => exact congrArg List.length (deployment.actOnLog_frame _).1
  | start =>
      simp only [step, start]
      split <;> rfl
  | crash id reason =>
      simp only [step, crash]
      split
      · rfl
      · exact List.length_modify ..
  | obstruct faults => rfl
  | setSyncFails fails => rfl
  | _ => exact List.length_modify ..

/-- Connections do not vanish. -/
theorem survives (hevent : event ≠ .restart)
    (hbefore : deployment.connections[id]? = some before) :
    ∃ after, (deployment.step event).deployment.connections[id]? = some after := by
  have hlength := (List.getElem?_eq_some_iff.mp hbefore).1
  refine ⟨_, List.getElem?_eq_getElem ?_⟩
  by_cases hconnect : ∃ peer, event = .connect peer
  · obtain ⟨peer, rfl⟩ := hconnect
    change id < (deployment.connections ++ [Connection.fresh peer]).length
    rw [List.length_append]
    exact Nat.lt_add_right _ hlength
  · rw [length_step hevent fun peer hpeer => hconnect ⟨peer, hpeer⟩]
    exact hlength

/-- A new connection is that of a client that has just connected. -/
theorem newcomer (hevent : event ≠ .restart) (hnew : deployment.connections[id]? = none)
    (hafter : (deployment.step event).deployment.connections[id]? = some after) :
    ∃ peer, event = .connect peer ∧ after = .fresh peer := by
  have hlate := List.getElem?_eq_none_iff.mp hnew
  have hlength := (List.getElem?_eq_some_iff.mp hafter).1
  by_cases hconnect : ∃ peer, event = .connect peer
  · obtain ⟨peer, rfl⟩ := hconnect
    change (deployment.connections ++ [Connection.fresh peer])[id]? = some after at hafter
    rw [List.getElem?_append_right hlate] at hafter
    exact ⟨peer, rfl, List.mem_singleton.mp (List.mem_of_getElem? hafter)⟩
  · rw [length_step hevent fun peer hpeer => hconnect ⟨peer, hpeer⟩] at hlength
    omega

/-- A request is answered on an open connection, and its reply is sent there. -/
theorem served_of_answered {transaction : Transaction}
    (hwhole : deployment.server.logIsHalfClosed = false)
    (hanswered : deployment.answered (.turn id) = [transaction])
    (hsound : ∀ connection, deployment.connections[id]? = some connection →
      connection.stream.Sound deployment.server.limits) :
    ∃ (before : Connection) (left : Stream), deployment.connections[id]? = some before ∧
      before.isOpen = true ∧ transaction.record.Holds deployment.server.limits ∧
      (deployment.turn id).deployment.connections[id]? =
        some ({ before with stream := left }.reply transaction.exchange.reply).1 := by
  have hevent : Event.turn id ≠ .restart := fun hsame => nomatch hsame
  obtain ⟨hid, hlength, -⟩ := mem_answered (hanswered ▸ List.mem_singleton_self transaction)
  obtain rfl := Event.turn.inj hid
  obtain ⟨before, hbefore⟩ : ∃ before,
      deployment.connections[transaction.exchange.id]? = some before :=
    ⟨_, List.getElem?_eq_getElem hlength⟩
  obtain ⟨after, hafter⟩ := survives hevent hbefore
  have hon : Transaction.on transaction.exchange.id
      (deployment.answered (.turn transaction.exchange.id)) = [transaction] := by
    rw [hanswered, Transaction.on_singleton, if_pos rfl]
  have hmoves := moves hevent hwhole hbefore (hsound before hbefore) hafter
  cases hmoves with
  | quiet _ hnone =>
      rw [hon] at hnone
      cases hnone
  | concluded _ _ _ _ hnone =>
      rw [hon] at hnone
      cases hnone
  | @served other left _ hopen hholds _ _ hsome =>
      rw [hon] at hsome
      obtain rfl := (List.cons.inj hsome).1
      exact ⟨before, left, hbefore, hopen, hholds, hafter⟩

end Deployment

/-! ## Requests one after the other -/

namespace History

variable {server : Server} {history : History} {event : Event}

/-- The requests of a history have been answered one after the other. -/
structure Answers (server : Server) (history : History) : Prop where
  limits_eq : history.deployment.server.limits = server.limits
  exchanges_eq : history.exchanges = (server.answerAll history.requests).1
  keyspace_eq : history.deployment.server.keyspace =
    (server.answerAll history.requests).2.keyspace

namespace Answers

/-- Nothing has been answered at first. -/
theorem start (server : Server) (volume : Volume) : Answers server (.start server volume) :=
  ⟨rfl, rfl, rfl⟩

/-- Every event but a restart answers at most one more request. -/
theorem step (hanswers : history.Answers server) (hevent : event ≠ .restart) :
    (history.step event).Answers server := by
  obtain ⟨hlimits, hexchanges, hkeyspace⟩ := hanswers
  have hquiet : history.deployment.answered event = [] →
      (history.deployment.step event).deployment.server.keyspace =
        history.deployment.server.keyspace ∧
      (history.deployment.step event).deployment.server.limits =
        history.deployment.server.limits → (history.step event).Answers server := by
    rintro hnothing ⟨hsame, hlimits'⟩
    have htransactions : (history.step event).transactions = history.transactions := by
      rw [History.step, hnothing, List.append_nil]
    unfold requests exchanges at hexchanges hkeyspace
    refine ⟨hlimits'.trans hlimits, ?_, ?_⟩
    · unfold requests exchanges
      rw [htransactions]
      exact hexchanges
    · unfold requests exchanges
      rw [htransactions]
      exact hsame.trans hkeyspace
  by_cases hturn : ∃ id, event = .turn id
  · obtain ⟨id, rfl⟩ := hturn
    rcases history.deployment.answered_turn id with
      ⟨hnothing, hserver⟩ | ⟨request, octets, hanswered, hserver⟩
    · exact hquiet hnothing ⟨congrArg Server.keyspace hserver, congrArg Server.limits hserver⟩
    · obtain ⟨hreply, hafter⟩ := Server.process_congr hkeyspace request
      have hmore : (history.step (.turn id)).requests = history.requests ++ [(id, request)] := by
        simp only [requests, exchanges, History.step, hanswered, List.map_append, List.map_cons,
          List.map_nil]
      refine ⟨?_, ?_, ?_⟩
      · exact (congrArg Server.limits hserver).trans
          ((history.deployment.server.process_cases request).1.trans hlimits)
      · rw [hmore, Server.answerAll_append, ← hexchanges]
        simp only [exchanges, History.step, hanswered, List.map_append, List.map_cons, List.map_nil,
          Server.answerAll, hreply]
      · rw [hmore, Server.answerAll_append]
        exact (congrArg Server.keyspace hserver).trans hafter
  · have hother : ∀ id, event ≠ .turn id := fun id hid => hturn ⟨id, hid⟩
    exact hquiet (Deployment.answered_eq_nil hother) (Deployment.step_frame hevent hother)

/-- So it is throughout. -/
theorem run {volume : Volume} {events : List Event}
    (hevents : ∀ event ∈ events, event ≠ .restart) :
    ((History.start server volume).run events).Answers server :=
  run_induction hevents (start server volume) fun _ _ hevent hanswers => hanswers.step hevent

end Answers

/-! ## All connections -/

/-- Account has been kept of every connection. -/
structure Accounted (limits : Limits) (history : History) : Prop where
  connections : ∀ id (connection : Connection),
    history.deployment.connections[id]? = some connection →
    connection.Accounts limits (history.received id) (Transaction.on id history.transactions)
  /-- Nothing has happened on the connections that there will be. -/
  future : ∀ id, history.deployment.connections.length ≤ id →
    history.received id = [] ∧ Transaction.on id history.transactions = []

namespace Accounted

variable {limits : Limits}

/-- Nothing has happened at first. -/
theorem start (limits : Limits) (server : Server) (volume : Volume) :
    Accounted limits (.start server volume) where
  connections _ _ hconnection := by simp [History.start, Deployment.ofServer] at hconnection
  future _ _ := ⟨rfl, rfl⟩

/-- Every event but a restart is accounted for, unless the log is half closed. -/
theorem step (haccounted : history.Accounted limits)
    (hlimits : history.deployment.server.limits = limits)
    (hwhole : history.deployment.server.logIsHalfClosed = false) (hevent : event ≠ .restart) :
    (history.step event).Accounted limits := by
  have hnothing : ∀ id, history.deployment.connections[id]? = none →
      (history.step event).received id = [] ∧
        Transaction.on id (history.step event).transactions = [] := by
    intro id hnew
    have hlate := List.getElem?_eq_none_iff.mp hnew
    obtain ⟨hreceived, hnone⟩ := haccounted.future id hlate
    refine ⟨?_, ?_⟩
    · simp only [History.step, hreceived, List.nil_append]
      cases event with
      | deliver other octets => exact if_neg fun hboth => by simp [hnew] at hboth
      | _ => rfl
    · simp only [History.step, Transaction.on_append, hnone, List.nil_append]
      refine List.filter_eq_nil_iff.mpr fun transaction htransaction => ?_
      have hexists := (Deployment.mem_answered htransaction).2.1
      have hother : transaction.exchange.id ≠ id := by omega
      simpa using hother
  constructor
  · intro id after hafter
    cases hbefore : history.deployment.connections[id]? with
    | none =>
        obtain ⟨hreceived, hnone⟩ := hnothing id hbefore
        obtain ⟨peer, -, rfl⟩ := Deployment.newcomer hevent hbefore hafter
        rw [hreceived, hnone]
        exact .fresh limits peer
    | some before =>
        have haccounts := haccounted.connections id before hbefore
        have hmoves := Deployment.moves hevent hwhole hbefore (hlimits ▸ haccounts.sound) hafter
        simp only [History.step, Transaction.on_append]
        cases hmoves with
        | quiet hquiet hanswered =>
            rw [hanswered, List.append_nil]
            exact haccounts.quiet hquiet
        | served hturn hopen hholds hsound hoctets hanswered =>
            subst hturn
            rw [hanswered, Deployment.arriving_turn, List.append_nil]
            exact haccounts.served hopen (hlimits ▸ hholds) (hlimits ▸ hsound) hoctets
        | concluded hturn hopen hsound hoctets hanswered =>
            subst hturn
            rw [hanswered, Deployment.arriving_turn, List.append_nil, List.append_nil, hlimits]
            exact haccounts.conclude hopen (hlimits ▸ hsound) hoctets
  · intro id hlate
    refine hnothing id ?_
    cases hbefore : history.deployment.connections[id]? with
    | none => rfl
    | some before =>
        obtain ⟨after, hafter⟩ := Deployment.survives hevent hbefore
        have hlength := (List.getElem?_eq_some_iff.mp hafter).1
        exact absurd hlate (Nat.not_le.mpr hlength)

/-- Account is kept throughout. -/
theorem run {volume : Volume} {events : List Event}
    (hevents : ∀ event ∈ events, event ≠ .restart)
    (hintact : (History.start server volume).Intact events) :
    ((History.start server volume).run events).Accounted server.limits := by
  have hboth : ((History.start server volume).run events).Answers server ∧
      ((History.start server volume).run events).Accounted server.limits := by
    refine hintact.induction (motive := fun history =>
      history.Answers server ∧ history.Accounted server.limits) hevents
      ⟨.start server volume, .start _ server volume⟩ ?_
    rintro history event hevent hwhole - ⟨hanswers, haccounted⟩
    exact ⟨hanswers.step hevent, haccounted.step hanswers.limits_eq hwhole hevent⟩
  exact hboth.2

/-- The octets that have arrived on a connection begin with those of its requests. -/
theorem received_eq (haccounted : history.Accounted limits) (id : Nat) :
    (∀ record ∈ (Transaction.on id history.transactions).map Transaction.record,
        record.Holds limits) ∧
      ∃ rest, history.received id = Record.joined
        ((Transaction.on id history.transactions).map Transaction.record) ++ rest := by
  cases hconnection : history.deployment.connections[id]? with
  | none =>
      have hlate := List.getElem?_eq_none_iff.mp hconnection
      obtain ⟨hreceived, hnone⟩ := haccounted.future id hlate
      rw [hreceived, hnone]
      exact ⟨fun record hrecord => (nomatch hrecord), [], rfl⟩
  | some connection =>
      have haccounts := haccounted.connections id connection hconnection
      obtain ⟨rest, hreceived, -⟩ := haccounts.received_eq
      refine ⟨fun record hrecord => ?_, rest, hreceived⟩
      obtain ⟨transaction, htransaction, rfl⟩ := List.mem_map.mp hrecord
      exact haccounts.holds transaction htransaction

end Accounted

/-! ## Connections that have ended -/

/-- A connection has ended, and these octets had been sent on it. -/
def Ended (id : Nat) (sent : List Bytes) (history : History) : Prop :=
  ∃ connection, history.deployment.connections[id]? = some connection ∧
    connection.isOpen = false ∧ connection.sent = sent

variable {limits : Limits} {id : Nat} {sent : List Bytes}

/-- A connection that has ended stays as it is, and no request is answered on it. -/
theorem Ended.step (hended : history.Ended id sent) (haccounted : history.Accounted limits)
    (hlimits : history.deployment.server.limits = limits)
    (hwhole : history.deployment.server.logIsHalfClosed = false) (hevent : event ≠ .restart) :
    (history.step event).Ended id sent ∧
      Exchange.on id (history.step event).exchanges = Exchange.on id history.exchanges := by
  obtain ⟨before, hbefore, hclosed, rfl⟩ := hended
  have haccounts := haccounted.connections id before hbefore
  obtain ⟨after, hafter⟩ := Deployment.survives hevent hbefore
  have hmoves := Deployment.moves hevent hwhole hbefore (hlimits ▸ haccounts.sound) hafter
  cases hmoves with
  | quiet hquiet hanswered =>
      refine ⟨⟨after, hafter, ?_, hquiet.sent_eq⟩, ?_⟩
      · exact Bool.eq_false_iff.mpr fun hopen => by simp [hquiet.isOpen hopen] at hclosed
      · rw [exchanges, History.step, List.map_append, Exchange.on_append,
          ← Transaction.map_exchange_on id (history.deployment.answered event), hanswered]
        exact List.append_nil _
  | served _ hopen _ _ _ _ =>
      rw [hclosed] at hopen
      cases hopen
  | concluded _ hopen _ _ _ =>
      rw [hclosed] at hopen
      cases hopen

/-- So it does throughout. -/
theorem Ended.run (hended : history.Ended id sent) (hanswers : history.Answers server)
    (haccounted : history.Accounted server.limits) {events : List Event}
    (hevents : ∀ event ∈ events, event ≠ .restart) (hintact : history.Intact events) :
    (history.run events).Ended id sent ∧
      Exchange.on id (history.run events).exchanges = Exchange.on id history.exchanges := by
  induction events generalizing history with
  | nil => exact ⟨hended, rfl⟩
  | cons event events ih =>
      obtain ⟨hevent, hrest⟩ := List.forall_mem_cons.mp hevents
      obtain ⟨hwhole, hlater⟩ := Intact.cons_iff.mp hintact
      obtain ⟨hnext, hsame⟩ := hended.step haccounted hanswers.limits_eq hwhole hevent
      obtain ⟨hlast, hall⟩ := ih hnext (hanswers.step hevent)
        (haccounted.step hanswers.limits_eq hwhole hevent) hrest hlater
      exact ⟨hlast, hall.trans hsame⟩

/-- A connection that has ended in the course of a run is left alone from then on. -/
theorem Ended.of_run {volume : Volume} {before after : List Event}
    (hended : ((start server volume).run before).Ended id sent)
    (hevents : ∀ event ∈ before ++ after, event ≠ .restart)
    (hintact : (start server volume).Intact (before ++ after)) :
    ((start server volume).run (before ++ after)).Ended id sent ∧
      Exchange.on id ((start server volume).run (before ++ after)).exchanges =
        Exchange.on id ((start server volume).run before).exchanges := by
  obtain ⟨hbefore, hafter⟩ := List.forall_mem_append.mp hevents
  rw [run_append]
  exact hended.run (.run hbefore) (.run hbefore hintact.left) hafter hintact.right

/-- When the server is stopped, all connections end. -/
theorem ended_stop {connection : Connection}
    (hconnection : history.deployment.connections[id]? = some connection) :
    (history.step .stop).Ended id connection.sent := by
  refine ⟨connection.close, ?_, rfl, rfl⟩
  change (history.deployment.connections.map Connection.close)[id]? = _
  rw [List.getElem?_map, hconnection]
  rfl

/-- A connection that was there when the server was stopped is left alone from then
on. -/
theorem Ended.of_stop {volume : Volume} {before after : List Event} {connection : Connection}
    (hconnection :
      ((start server volume).run before).deployment.connections[id]? = some connection)
    (hevents : ∀ event ∈ before ++ .stop :: after, event ≠ .restart)
    (hintact : (start server volume).Intact (before ++ .stop :: after)) :
    ((start server volume).run (before ++ .stop :: after)).Ended id connection.sent ∧
      Exchange.on id ((start server volume).run (before ++ .stop :: after)).exchanges =
        Exchange.on id ((start server volume).run before).exchanges := by
  have hstop : (start server volume).run (before ++ [.stop]) =
      ((start server volume).run before).step .stop := run_append _ _ _
  have hended := ended_stop hconnection
  rw [← hstop] at hended
  -- Nothing is answered when the server is stopped.
  have hsame : ((start server volume).run (before ++ [.stop])).exchanges =
      ((start server volume).run before).exchanges := by
    rw [hstop]
    exact congrArg (List.map Transaction.exchange) (List.append_nil _)
  rw [← List.singleton_append, ← List.append_assoc] at hevents hintact ⊢
  rw [← hsame]
  exact hended.of_run hevents hintact

end History

end DurableStore
