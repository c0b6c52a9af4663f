import DurableStore.Proofs.Server.Serving
import DurableStore.Server.Deployment

/-!
# Connections served in turn

Octets arrive on several connections, in pieces and in any order.  Each arrival
completes some values on its connection.  The server answers as if it were asked
these values one at a time, in the order in which they were completed; what it
writes on a connection is the replies to the values of that connection, and a
last answer if what remains is no value.

Main results:

- Definition `completions`: the values in the order in which they are completed.
- Definition `Connection.UpToDate`: a connection on which everything received
  has been answered.
- Theorem `Deployment.UpToDate.arrive`: every arrival keeps all connections up to
  date.
- Theorem `Deployment.arriveAll_inTurn`: the server refines a loop that answers
  one value at a time.
-/

namespace DurableStore

/-! ## Arrivals -/

/-- What can arrive on a connection. -/
inductive Arrival
  /-- Octets arrive. -/
  | octets (id : Nat) (chunk : Bytes)
  /-- The client sends nothing more. -/
  | finish (id : Nat)
  deriving DecidableEq

namespace Arrival

/-- The connection that an arrival concerns. -/
def id : Arrival → Nat
  | .octets id _ | .finish id => id

/-- The octets that an arrival brings. -/
def chunk : Arrival → Bytes
  | .octets _ chunk => chunk
  | .finish _ => []

/-- Whether nothing more will arrive. -/
def isLast : Arrival → Bool
  | .octets _ _ => false
  | .finish _ => true

/-- What an arrival does to its connection. -/
def reach : Arrival → Connection → Connection
  | .octets _ chunk => fun connection => connection.deliver chunk
  | .finish _ => Connection.finish

end Arrival

/-- All that has arrived on a connection. -/
structure Inbox where
  octets : Bytes
  ended : Bool
  deriving DecidableEq

namespace Inbox

/-- Nothing has arrived. -/
def empty : Inbox := ⟨[], false⟩

/-- An arrival on the connection; nothing arrives after the end. -/
def receive (inbox : Inbox) (arrival : Arrival) : Inbox :=
  if inbox.ended then inbox else ⟨inbox.octets ++ arrival.chunk, arrival.isLast⟩

/-- All that has arrived on one of several connections. -/
def ofArrivals (id : Nat) (arrivals : List Arrival) : Inbox :=
  (arrivals.filter fun arrival => arrival.id = id).foldl receive empty

/-- The complete values, in order. -/
def values (limits : Limits) (inbox : Inbox) : List Value :=
  (decodeAll limits inbox.octets).values.map Prod.fst

/-- The octets behind the complete values. -/
def rest (limits : Limits) (inbox : Inbox) : Bytes :=
  inbox.octets.drop (decodeAll limits inbox.octets).stop

/-- The last answer that is due, if there is one. -/
def lastReply? (limits : Limits) (inbox : Inbox) : Option Value :=
  DurableStore.lastReply? limits inbox.ended (inbox.rest limits)

end Inbox

/-- The values that an arrival completes, with the connection: those that
decoding finds with it but not without it. -/
def Arrival.completed (limits : Limits) (before : List Arrival) (arrival : Arrival) :
    List (Nat × Value) :=
  (((Inbox.ofArrivals arrival.id (before ++ [arrival])).values limits).drop
    ((Inbox.ofArrivals arrival.id before).values limits).length).map (arrival.id, ·)

/-- The values that arrivals complete when others have arrived before, in the
order in which they are completed. -/
def completions (limits : Limits) (before : List Arrival) : List Arrival → List (Nat × Value)
  | [] => []
  | arrival :: later =>
      arrival.completed limits before ++ completions limits (before ++ [arrival]) later

namespace Deployment

/-- A server to which clients have connected, none of which has sent
anything. -/
def ofPeers (server : Server) (volume : Volume) (peers : List String) : Deployment :=
  ⟨server, volume, peers.map .fresh⟩

/-- Something arrives on a connection, and is answered as far as possible. -/
def arrive (deployment : Deployment) : Arrival → Deployment
  | .octets id chunk => (deployment.receive id chunk).deployment
  | .finish id => (deployment.hangUp id).deployment

/-- One arrival after the other. -/
def arriveAll (deployment : Deployment) (arrivals : List Arrival) : Deployment :=
  arrivals.foldl arrive deployment

end Deployment

/-! ## What has arrived on a connection -/

namespace Inbox

variable {limits : Limits} {inbox : Inbox} {records : List Record} {tail : Bytes}

/-- One more arrival concerns the inbox of its connection. -/
theorem ofArrivals_concat (id : Nat) (before : List Arrival) (arrival : Arrival) :
    ofArrivals id (before ++ [arrival]) =
      if arrival.id = id then (ofArrivals id before).receive arrival
      else ofArrivals id before := by
  unfold ofArrivals
  rw [List.filter_append, List.foldl_append]
  by_cases hsame : arrival.id = id
  · rw [if_pos hsame, List.filter_cons_of_pos (by simpa using hsame)]
    rfl
  · rw [if_neg hsame, List.filter_cons_of_neg (by simpa using hsame)]
    rfl

/-- The values are those of the records. -/
theorem values_eq (hsplits : Splits limits inbox.octets records tail) :
    inbox.values limits = records.map Record.value :=
  hsplits.values_decodeAll

/-- The rest is that of the division. -/
theorem rest_eq (hsplits : Splits limits inbox.octets records tail) :
    inbox.rest limits = tail :=
  hsplits.drop_stop

/-- The complete values keep within the limits. -/
theorem fits_of_mem_values {value : Value} (hvalue : value ∈ inbox.values limits) :
    value.Fits limits limits.depth := by
  rcases exists_splits limits inbox.octets with ⟨records, tail, hsplits⟩
  rw [values_eq hsplits] at hvalue
  rcases List.mem_map.mp hvalue with ⟨record, hrecord, rfl⟩
  exact Value.fits_of_read (hsplits.holds record hrecord [])

/-- An arrival completes further values. -/
theorem values_prefix_receive (limits : Limits) (inbox : Inbox) (arrival : Arrival) :
    inbox.values limits <+: (inbox.receive arrival).values limits := by
  unfold receive
  split
  · exact List.prefix_refl _
  · rcases exists_splits limits inbox.octets with ⟨records, tail, hsplits⟩
    rcases exists_splits limits (tail ++ arrival.chunk) with ⟨later, last, hmore⟩
    rw [values_eq hsplits, values_eq (hsplits.extend hmore), List.map_append]
    exact List.prefix_append _ _

end Inbox

/-! ## Completed values -/

section Completions

variable {limits : Limits}

/-- Completed values are appended. -/
theorem completions_append (before arrivals later : List Arrival) :
    completions limits before (arrivals ++ later) =
      completions limits before arrivals ++ completions limits (before ++ arrivals) later := by
  induction arrivals generalizing before with
  | nil => simp [completions]
  | cons arrival arrivals ih =>
      simp only [List.cons_append, completions, ih, List.append_assoc, List.nil_append]

/-- One more arrival completes its values. -/
theorem completions_concat (arrivals : List Arrival) (arrival : Arrival) :
    completions limits [] (arrivals ++ [arrival]) =
      completions limits [] arrivals ++ arrival.completed limits arrivals := by
  rw [completions_append, List.nil_append]
  simp only [completions, List.append_nil]

/-- The values of a connection are those before an arrival on it and those that
the arrival completes. -/
theorem Arrival.values_completed (before : List Arrival) (arrival : Arrival) :
    ∃ values : List Value, arrival.completed limits before = values.map (arrival.id, ·) ∧
      (Inbox.ofArrivals arrival.id (before ++ [arrival])).values limits =
        (Inbox.ofArrivals arrival.id before).values limits ++ values := by
  refine ⟨_, rfl, ?_⟩
  have hprefix := (Inbox.ofArrivals arrival.id before).values_prefix_receive limits arrival
  rw [Inbox.ofArrivals_concat, if_pos rfl]
  exact (List.prefix_iff_eq_append.mp hprefix).symm

/-- The values that an arrival completes keep within the limits. -/
theorem Arrival.fits_of_completed {before : List Arrival} {arrival : Arrival}
    {request : Nat × Value} (hrequest : request ∈ arrival.completed limits before) :
    request.2.Fits limits limits.depth := by
  rcases arrival.values_completed before with ⟨values, hcompleted, hvalues⟩
  rw [hcompleted] at hrequest
  rcases List.mem_map.mp hrequest with ⟨value, hvalue, rfl⟩
  refine (Inbox.ofArrivals arrival.id (before ++ [arrival])).fits_of_mem_values ?_
  rw [hvalues]
  exact List.mem_append_right _ hvalue

/-- The second connection completes its values first, although the first began
earlier. -/
example :
    completions .standard []
        [.octets 0 (Bytes.ofString "*1\r\n$4\r\nPI"),
          .octets 1 (Bytes.ofString "+OK\r\n$-1\r\n*1"),
          .octets 0 (Bytes.ofString "NG\r\n")] =
      [(1, .simple (Bytes.ofString "OK")), (1, .absentBulk),
        (0, .array [.bulk (Bytes.ofString "PING")])] := by
  decide +kernel

end Completions

/-! ## Connections that are up to date -/

/-- Everything that has arrived on a connection has been answered. -/
structure Connection.UpToDate (limits : Limits) (inbox : Inbox) (replies : List Value)
    (connection : Connection) : Prop where
  drains : connection.drainFails = false
  sent_eq : connection.sent =
    ((replies ++ (inbox.lastReply? limits).toList).map Value.wire).reverse
  isOpen_eq : connection.isOpen = (!inbox.ended && (inbox.lastReply? limits).isNone)
  /-- On an open connection, what remains waits for more octets. -/
  stream_eq : connection.isOpen = true → connection.stream.octets = inbox.rest limits ∧
    connection.stream.closed = false ∧ connection.stream.Sound limits

section Connections

variable {limits : Limits} {inbox : Inbox} {replies : List Value} {connection : Connection}

/-- Once a connection has ended, an arrival changes neither the values nor the
last answer. -/
theorem Inbox.receive_done (hdone : inbox.ended = true ∨ (inbox.lastReply? limits).isSome = true)
    (arrival : Arrival) :
    (inbox.receive arrival).values limits = inbox.values limits ∧
      (inbox.receive arrival).lastReply? limits = inbox.lastReply? limits ∧
      ((inbox.receive arrival).ended = true ∨
        ((inbox.receive arrival).lastReply? limits).isSome = true) := by
  by_cases hended : inbox.ended = true
  · rw [receive, if_pos hended]
    exact ⟨rfl, rfl, hdone⟩
  · have hlast := hdone.resolve_left hended
    rcases exists_splits limits inbox.octets with ⟨records, tail, hsplits⟩
    have hobstacle : ∃ error, obstacle? limits tail = some error := by
      rw [lastReply?, lastReply_isSome, rest_eq hsplits] at hlast
      exact hlast.resolve_right fun hend => hended hend.1
    rcases hobstacle with ⟨error, herror⟩
    have hmore := hsplits.extend_of_obstacle herror arrival.chunk
    have hsame : (inbox.receive arrival).lastReply? limits = inbox.lastReply? limits := by
      rw [receive, if_neg hended]
      unfold lastReply? DurableStore.lastReply? lastWord?
      rw [rest_eq hsplits, rest_eq hmore, herror, obstacle_append herror]
    refine ⟨?_, hsame, .inr ?_⟩
    · rw [receive, if_neg hended, values_eq hsplits, values_eq hmore]
    · rw [hsame]
      exact hlast

/-- A connection on which nothing has arrived is up to date. -/
theorem Connection.upToDate_fresh (limits : Limits) (peer : String) :
    (fresh peer).UpToDate limits .empty [] := by
  have hrest : Inbox.empty.rest limits = [] := List.drop_nil
  have hlast : Inbox.empty.lastReply? limits = none := by
    have hnone := obstacle_eq_none (readValue_nil limits limits.depth 0) rfl
    unfold Inbox.lastReply? lastReply? lastWord?
    rw [hrest, hnone]
    rfl
  refine ⟨rfl, ?_, ?_, fun _ => ⟨hrest.symm, rfl, Receiver.sound_empty⟩⟩
  · rw [hlast]
    rfl
  · rw [hlast]
    rfl

/-- What an arrival does to a connection that is open. -/
theorem Arrival.reach_open (arrival : Arrival) (hopen : connection.isOpen = true)
    (hclosed : connection.stream.closed = false) :
    (arrival.reach connection).isOpen = true ∧
      (arrival.reach connection).drainFails = connection.drainFails ∧
      (arrival.reach connection).sent = connection.sent ∧
      (arrival.reach connection).stream.octets = connection.stream.octets ++ arrival.chunk ∧
      (arrival.reach connection).stream.closed = arrival.isLast ∧
      (arrival.reach connection).stream.receiver = connection.stream.receiver := by
  cases arrival with
  | octets id chunk =>
      have hreach : reach (.octets id chunk) connection =
          { connection with stream := connection.stream.feed chunk } := by
        simp only [reach, Connection.deliver, if_pos hopen]
      rw [hreach]
      exact ⟨hopen, rfl, rfl, (List.append_assoc ..).symm, hclosed, rfl⟩
  | finish id => exact ⟨hopen, rfl, rfl, (List.append_nil _).symm, rfl, rfl⟩

/-- What an arrival does to a connection that has ended. -/
theorem Arrival.reach_closed (arrival : Arrival) (hclosed : connection.isOpen = false) :
    (arrival.reach connection).isOpen = false ∧
      (arrival.reach connection).drainFails = connection.drainFails ∧
      (arrival.reach connection).sent = connection.sent := by
  cases arrival with
  | octets id chunk =>
      simp only [reach, Connection.deliver, hclosed, Bool.false_eq_true, if_false]
      exact ⟨trivial, trivial, trivial⟩
  | finish id => exact ⟨hclosed, rfl, rfl⟩

namespace Connection.UpToDate

/-- Answering an arrival on a connection that has ended changes nothing. -/
theorem serve_closed (hup : connection.UpToDate limits inbox replies)
    (hclosed : connection.isOpen = false) (server : Server) (arrival : Arrival) :
    (inbox.receive arrival).values limits = inbox.values limits ∧
      (server.serve (arrival.reach connection)).server = server ∧
      (server.serve (arrival.reach connection)).connection.UpToDate limits
        (inbox.receive arrival) replies := by
  have hdone : inbox.ended = true ∨ (inbox.lastReply? limits).isSome = true := by
    have hopen := hup.isOpen_eq
    rw [hclosed] at hopen
    cases hended : inbox.ended with
    | true => exact .inl rfl
    | false =>
        rw [hended] at hopen
        exact .inr (by simpa using hopen.symm)
  rcases Inbox.receive_done hdone arrival with ⟨hvalues, hlast, hstill⟩
  rcases arrival.reach_closed hclosed with ⟨hreach, hdrain, hsent⟩
  rw [Server.serve, Server.serveWithin_closed hreach]
  refine ⟨hvalues, rfl, hdrain.trans hup.drains, ?_, ?_, fun hopen => ?_⟩
  · rw [hlast]
    exact hsent.trans hup.sent_eq
  · rw [hreach]
    rcases hstill with hended | hsome
    · rw [hended]
      rfl
    · cases hfound : (inbox.receive arrival).lastReply? limits with
      | none =>
          rw [hfound] at hsome
          cases hsome
      | some reply => simp
  · rw [hreach] at hopen
    cases hopen

/-- Answering an arrival on an open connection answers the values that it
completes. -/
theorem serve_open {server : Server} (hup : connection.UpToDate limits inbox replies)
    (hopen : connection.isOpen = true) (hready : server.Ready limits) (arrival : Arrival) :
    ∃ values : List Value,
      (inbox.receive arrival).values limits = inbox.values limits ++ values ∧
      (server.serve (arrival.reach connection)).server =
        (server.answerAll (values.map (arrival.id, ·))).2 ∧
      (server.serve (arrival.reach connection)).connection.UpToDate limits
        (inbox.receive arrival)
        (replies ++ (server.answerAll (values.map (arrival.id, ·))).1.map Exchange.reply) := by
  rcases hup.stream_eq hopen with ⟨hoctets, hclosed, hsound⟩
  have hgoing : inbox.ended = false ∧ inbox.lastReply? limits = none := by
    have hboth := hup.isOpen_eq
    rw [hopen] at hboth
    simpa using hboth.symm
  rcases hgoing with ⟨hended, hlast⟩
  rcases exists_splits limits inbox.octets with ⟨records, tail, hsplits⟩
  rcases exists_splits limits (tail ++ arrival.chunk) with ⟨later, last, hmore⟩
  have hall := hsplits.extend hmore
  have hreceive : inbox.receive arrival = ⟨inbox.octets ++ arrival.chunk, arrival.isLast⟩ := by
    rw [Inbox.receive, hended, if_neg Bool.false_ne_true]
  rcases arrival.reach_open hopen hclosed with ⟨hstill, hdrain, hsent, harrived, hend, hreceiver⟩
  rw [hoctets, Inbox.rest_eq hsplits] at harrived
  have hsafe : (arrival.reach connection).stream.Sound limits := by
    rw [Stream.Sound, hreceiver]
    exact hsound
  rw [← harrived] at hmore
  obtain ⟨left, hleft, hleftClosed, hleftSound, notices, hserve⟩ :=
    Server.serve_spec arrival.id hready hstill (hdrain.trans hup.drains) hsafe hmore
  have hdue : (inbox.receive arrival).lastReply? limits =
      lastReply? limits left.closed left.octets := by
    rw [Inbox.lastReply?, hreceive, Inbox.rest_eq hall, hleftClosed, hend, hleft]
  refine ⟨later.map Record.value, ?_, by rw [hserve], ?_⟩
  · rw [hreceive, Inbox.values_eq hall, Inbox.values_eq hsplits, List.map_append]
  · rw [hserve]
    refine ⟨hdrain.trans hup.drains, ?_, ?_, fun hon => ⟨?_, ?_, hleftSound⟩⟩
    · simp only [Connection.conclude, hdue, hsent, hup.sent_eq, hlast]
      cases lastReply? limits left.closed left.octets <;> simp
    · rw [hdue]
      simp only [Connection.conclude, hreceive, hleftClosed, hend]
    · simp only [Connection.conclude]
      rw [hreceive, Inbox.rest_eq hall, hleft]
    · simp only [Connection.conclude, Bool.and_eq_true, Bool.not_eq_true'] at hon ⊢
      exact hon.1

/-- Answering an arrival answers the values that it completes. -/
theorem serve {server : Server} (hup : connection.UpToDate limits inbox replies)
    (hready : server.Ready limits) {arrival : Arrival} {values : List Value}
    (hvalues : (inbox.receive arrival).values limits = inbox.values limits ++ values) :
    (server.serve (arrival.reach connection)).server =
        (server.answerAll (values.map (arrival.id, ·))).2 ∧
      (server.serve (arrival.reach connection)).connection.UpToDate limits
        (inbox.receive arrival)
        (replies ++ (server.answerAll (values.map (arrival.id, ·))).1.map Exchange.reply) := by
  cases hopen : connection.isOpen with
  | true =>
      rcases hup.serve_open hopen hready arrival with ⟨found, hfound, hserver, hnext⟩
      rw [hfound] at hvalues
      obtain rfl := List.append_cancel_left hvalues
      exact ⟨hserver, hnext⟩
  | false =>
      rcases hup.serve_closed hopen server arrival with ⟨hsame, hserver, hnext⟩
      rw [hsame] at hvalues
      obtain rfl := List.self_eq_append_right.mp hvalues
      simpa [Server.answerAll] using And.intro hserver hnext

/-- What has been written is the replies and the last answer. -/
theorem output_eq (hup : connection.UpToDate limits inbox replies) :
    connection.output =
      ((replies ++ (inbox.lastReply? limits).toList).map Value.wire).flatten := by
  rw [Connection.output, Connection.outputAfter, Nat.sub_zero, List.take_length, hup.sent_eq,
    List.reverse_reverse]

end Connection.UpToDate

end Connections

/-! ## Deployments that are up to date -/

/-- The exchanges when arrivals are answered one value at a time. -/
def Server.exchanges (server : Server) (arrivals : List Arrival) : List Exchange :=
  (server.answerAll (completions server.limits [] arrivals)).1

/-- One more arrival is answered after all others. -/
theorem Server.answerAll_concat (server : Server) (before : List Arrival) (arrival : Arrival)
    {current : Server}
    (hcurrent : current = (server.answerAll (completions server.limits [] before)).2) :
    server.exchanges (before ++ [arrival]) = server.exchanges before ++
        (current.answerAll (arrival.completed server.limits before)).1 ∧
      (server.answerAll (completions server.limits [] (before ++ [arrival]))).2 =
        (current.answerAll (arrival.completed server.limits before)).2 := by
  unfold exchanges
  rw [completions_concat, answerAll_append, ← hcurrent]
  exact ⟨rfl, rfl⟩

namespace Deployment

/-- Everything that has arrived has been answered, one value at a time, in the
order in which the values were completed. -/
structure UpToDate (server : Server) (arrivals : List Arrival) (deployment : Deployment) :
    Prop where
  ready : deployment.server.Ready server.limits
  server_eq : deployment.server = (server.answerAll (completions server.limits [] arrivals)).2
  written : ∀ exchange ∈ server.exchanges arrivals, exchange.reply.encodeFault? = none
  requests_eq : ∀ id, (Exchange.on id (server.exchanges arrivals)).map Exchange.request =
    (Inbox.ofArrivals id arrivals).values server.limits
  connections_eq : ∀ (id : Nat) (connection : Connection),
    deployment.connections[id]? = some connection →
      connection.UpToDate server.limits (Inbox.ofArrivals id arrivals)
        ((Exchange.on id (server.exchanges arrivals)).map Exchange.reply)

variable {server : Server} {before : List Arrival} {deployment : Deployment}

/-- Before anything has arrived, there is nothing to answer. -/
theorem upToDate_ofPeers (hready : server.Ready server.limits) (volume : Volume)
    (peers : List String) : (ofPeers server volume peers).UpToDate server [] where
  ready := hready
  server_eq := rfl
  written exchange hexchange := by cases hexchange
  requests_eq id := rfl
  connections_eq id connection hconnection := by
    rw [ofPeers, List.getElem?_map] at hconnection
    rcases Option.map_eq_some_iff.mp hconnection with ⟨peer, -, rfl⟩
    exact Connection.upToDate_fresh server.limits peer

/-- An arrival concerns the server and its own connection. -/
theorem arrive_spec {arrival : Arrival} {connection : Connection}
    (hconnection : deployment.connections[arrival.id]? = some connection) :
    (deployment.arrive arrival).server =
        (deployment.server.serve (arrival.reach connection)).server ∧
      (deployment.arrive arrival).connections.length = deployment.connections.length ∧
      ∀ id, (deployment.arrive arrival).connections[id]? =
        if arrival.id = id then
          some (deployment.server.serve (arrival.reach connection)).connection
        else deployment.connections[id]? := by
  have harrive : deployment.arrive arrival =
      ((deployment.alter arrival.id arrival.reach).settle arrival.id).deployment := by
    cases arrival <;> rfl
  have hreached : (deployment.connections.modify arrival.id arrival.reach)[arrival.id]? =
      some (arrival.reach connection) := by
    rw [List.getElem?_modify_eq, hconnection]
    rfl
  have hsettle : deployment.arrive arrival =
      ⟨(deployment.server.serve (arrival.reach connection)).server, deployment.volume,
        (deployment.connections.modify arrival.id arrival.reach).set arrival.id
          (deployment.server.serve (arrival.reach connection)).connection⟩ := by
    rw [harrive]
    simp only [settle, alter, hreached, Outcome.quiet]
  rw [hsettle]
  refine ⟨rfl, by rw [List.length_set, List.length_modify], fun id => ?_⟩
  by_cases hsame : arrival.id = id
  · subst hsame
    have hlength : arrival.id < deployment.connections.length :=
      (List.getElem?_eq_some_iff.mp hconnection).1
    rw [if_pos rfl, List.getElem?_set_self (by rwa [List.length_modify])]
  · rw [if_neg hsame, List.getElem?_set_ne hsame, List.getElem?_modify_ne _ _ hsame]

/-- Every arrival keeps a deployment up to date. -/
theorem UpToDate.arrive (hup : deployment.UpToDate server before) {arrival : Arrival}
    (hid : arrival.id < deployment.connections.length) :
    (deployment.arrive arrival).UpToDate server (before ++ [arrival]) ∧
      (deployment.arrive arrival).connections.length = deployment.connections.length := by
  obtain ⟨connection, hconnection⟩ : ∃ connection,
      deployment.connections[arrival.id]? = some connection :=
    ⟨_, List.getElem?_eq_getElem hid⟩
  rcases arrive_spec hconnection with ⟨hserver, hlength, hothers⟩
  rcases arrival.values_completed before with ⟨values, hcompleted, hvalues⟩
  rw [Inbox.ofArrivals_concat, if_pos rfl] at hvalues
  obtain ⟨hserved, hnext⟩ :=
    (hup.connections_eq _ _ hconnection).serve hup.ready hvalues
  obtain ⟨hwritten, hready⟩ := hup.ready.answerAll fun request => arrival.fits_of_completed
  rcases server.answerAll_concat before arrival hup.server_eq with ⟨hexchanges, hcurrent⟩
  rw [hcompleted] at hwritten hready hexchanges hcurrent
  refine ⟨{
    ready := ?_
    server_eq := ?_
    written := fun exchange hexchange => ?_
    requests_eq := fun id => ?_
    connections_eq := fun id other hother => ?_ }, hlength⟩
  · rw [hserver, hserved]
    exact hready
  · rw [hserver, hserved, hcurrent]
  · rw [hexchanges] at hexchange
    rcases List.mem_append.mp hexchange with hold | hnew
    · exact hup.written exchange hold
    · exact hwritten exchange hnew
  · rw [hexchanges, Exchange.on_append, List.map_append, hup.requests_eq, Server.on_answerAll,
      Inbox.ofArrivals_concat]
    by_cases hsame : arrival.id = id
    · subst hsame
      rw [if_pos rfl, if_pos rfl, hvalues, Server.map_request_answerAll]
    · rw [if_neg hsame, if_neg hsame, List.map_nil, List.append_nil]
  · rw [hothers] at hother
    rw [hexchanges, Exchange.on_append, List.map_append, Server.on_answerAll,
      Inbox.ofArrivals_concat]
    by_cases hsame : arrival.id = id
    · subst hsame
      rw [if_pos rfl] at hother
      cases hother
      rw [if_pos rfl, if_pos rfl]
      exact hnext
    · rw [if_neg hsame] at hother
      rw [if_neg hsame, if_neg hsame, List.map_nil, List.append_nil]
      exact hup.connections_eq id other hother

/-- Arrivals one after the other keep a deployment up to date. -/
theorem UpToDate.arriveAll (hup : deployment.UpToDate server before) {arrivals : List Arrival}
    (hids : ∀ arrival ∈ arrivals, arrival.id < deployment.connections.length) :
    (deployment.arriveAll arrivals).UpToDate server (before ++ arrivals) ∧
      (deployment.arriveAll arrivals).connections.length = deployment.connections.length := by
  induction arrivals generalizing deployment before with
  | nil =>
      rw [List.append_nil]
      exact ⟨hup, rfl⟩
  | cons arrival arrivals ih =>
      rcases hup.arrive (hids arrival List.mem_cons_self) with ⟨hnext, hlength⟩
      obtain ⟨hlast, hsame⟩ := ih hnext fun other hother => by
        rw [hlength]
        exact hids other (List.mem_cons_of_mem _ hother)
      rw [List.append_assoc, List.singleton_append] at hlast
      exact ⟨hlast, hsame.trans hlength⟩

end Deployment

/-! ## A loop that answers one value at a time -/

/-- Values that can be written are written one by one. -/
theorem Value.mapM_encode {values : List Value}
    (hwritten : ∀ value ∈ values, value.encodeFault? = none) :
    values.mapM Value.encode = .ok (values.map Value.wire) := by
  induction values with
  | nil => rfl
  | cons value values ih =>
      have hfirst : value.encode = .ok value.wire := by
        rw [Value.encode, hwritten value List.mem_cons_self]
      have hrest := ih fun other hother => hwritten other (List.mem_cons_of_mem _ hother)
      rw [List.mapM_cons, hfirst, hrest]
      rfl

/-- What is written on a connection that is the only one with arrivals. -/
def Inbox.transcript (server : Server) (inbox : Inbox) : Bytes :=
  ((server.replies (inbox.values server.limits) ++
    (inbox.lastReply? server.limits).toList).map Value.wire).flatten

namespace Deployment

/-- Connections have been served as by a loop that answers one value at a
time. -/
structure InTurn (server : Server) (peers : List String) (arrivals : List Arrival)
    (deployment : Deployment) : Prop where
  /-- The completed values have been answered one at a time, in the order in
  which they were completed. -/
  server_eq : deployment.server = (server.answerAll (completions server.limits [] arrivals)).2
  /-- On each connection these are its complete values, in order. -/
  requests_eq : ∀ id, (Exchange.on id (server.exchanges arrivals)).map Exchange.request =
    (Inbox.ofArrivals id arrivals).values server.limits
  /-- What has been written on a connection is the replies to them, all of which
  can be encoded, and then the last answer, if there is one. -/
  output_eq : ∀ id < peers.length, ∃ connection, deployment.connections[id]? = some connection ∧
    ∃ writes, ((Exchange.on id (server.exchanges arrivals)).map Exchange.reply ++
      ((Inbox.ofArrivals id arrivals).lastReply? server.limits).toList).mapM Value.encode =
        .ok writes ∧ connection.output = writes.flatten
  /-- There is a last answer exactly if what remains is malformed, or the stream
  has ended inside a value; it is a protocol error. -/
  lastReply_iff : ∀ id, ((Inbox.ofArrivals id arrivals).lastReply? server.limits).isSome = true ↔
    (∃ error, obstacle? server.limits ((Inbox.ofArrivals id arrivals).rest server.limits) =
      some error) ∨ (Inbox.ofArrivals id arrivals).ended = true ∧
        (Inbox.ofArrivals id arrivals).rest server.limits ≠ []
  lastReply_eq : ∀ id reply,
    (Inbox.ofArrivals id arrivals).lastReply? server.limits = some reply →
      ∃ reason, reply = Reply.protocolError reason
  /-- A connection ends with its stream or with the last answer, and not
  before. -/
  isOpen_iff : ∀ (id : Nat) (connection : Connection),
    deployment.connections[id]? = some connection →
      (connection.isOpen = true ↔ (Inbox.ofArrivals id arrivals).ended = false ∧
        (Inbox.ofArrivals id arrivals).lastReply? server.limits = none)
  /-- Whatever has been answered before, a value that is no request is answered
  with an error and changes nothing. -/
  rejected : ∀ before id request error, Command.parse request = .error error →
    server.answerAll (before ++ [(id, request)]) =
      ((server.answerAll before).1 ++ [⟨id, request, Reply.invalidCommand error⟩],
        (server.answerAll before).2)
  /-- If nothing arrives on other connections, then the pieces in which octets
  arrive do not matter. -/
  alone : ∀ (id : Nat) (connection : Connection),
    deployment.connections[id]? = some connection → (∀ arrival ∈ arrivals, arrival.id = id) →
      connection.output = (Inbox.ofArrivals id arrivals).transcript server

variable {server : Server} {arrivals : List Arrival} {deployment : Deployment}

/-- The values that arrivals complete are those of their connections. -/
theorem mem_completions {limits : Limits} {before : List Arrival} {request : Nat × Value}
    (hrequest : request ∈ completions limits before arrivals) :
    ∃ arrival ∈ arrivals, arrival.id = request.1 := by
  induction arrivals generalizing before with
  | nil => cases hrequest
  | cons arrival arrivals ih =>
      rcases List.mem_append.mp hrequest with hfirst | hlater
      · rcases List.mem_map.mp hfirst with ⟨value, -, rfl⟩
        exact ⟨arrival, List.mem_cons_self, rfl⟩
      · rcases ih hlater with ⟨other, hother, hid⟩
        exact ⟨other, List.mem_cons_of_mem _ hother, hid⟩

/-- The replies on a connection that is the only one with arrivals are those to
its values. -/
theorem UpToDate.replies_alone (hup : deployment.UpToDate server arrivals) {id : Nat}
    (halone : ∀ arrival ∈ arrivals, arrival.id = id) :
    (Exchange.on id (server.exchanges arrivals)).map Exchange.reply =
      server.replies ((Inbox.ofArrivals id arrivals).values server.limits) := by
  have hrequests : (server.exchanges arrivals).map (fun exchange =>
      (exchange.id, exchange.request)) = completions server.limits [] arrivals :=
    server.requests_answerAll _
  have hreplies : (server.exchanges arrivals).map Exchange.reply =
      server.replies ((completions server.limits [] arrivals).map Prod.snd) :=
    server.replies_answerAll _
  have hall : Exchange.on id (server.exchanges arrivals) = server.exchanges arrivals := by
    refine List.filter_eq_self.mpr fun exchange hexchange => ?_
    rcases mem_completions (Server.mem_answerAll hexchange) with ⟨arrival, harrival, hid⟩
    simpa using hid.symm.trans (halone arrival harrival)
  have hvalues : (completions server.limits [] arrivals).map Prod.snd =
      (Inbox.ofArrivals id arrivals).values server.limits := by
    rw [← hup.requests_eq id, hall, ← hrequests, List.map_map]
    rfl
  rw [hall, hreplies, hvalues]

/-- Whatever arrives, in whatever pieces and in whatever order, connections are
served as by a loop that answers one value at a time.  (A log that has been left half closed
would keep a server from answering.) -/
theorem arriveAll_inTurn (hplain : server.keyspace.Plain) (hcount : server.limits.array < 2 ^ 63)
    (hwhole : server.logIsHalfClosed = false) (volume : Volume) {peers : List String}
    (hids : ∀ arrival ∈ arrivals, arrival.id < peers.length) :
    ((ofPeers server volume peers).arriveAll arrivals).InTurn server peers arrivals := by
  have hpeers : (ofPeers server volume peers).connections.length = peers.length :=
    List.length_map _
  rw [← hpeers] at hids
  obtain ⟨hup, hlength⟩ :=
    (upToDate_ofPeers ⟨rfl, hcount, hplain, hwhole⟩ volume peers).arriveAll hids
  rw [List.nil_append] at hup
  exact {
    server_eq := hup.server_eq
    requests_eq := hup.requests_eq
    output_eq := fun id hid => by
      obtain ⟨connection, hconnection⟩ : ∃ connection,
          ((ofPeers server volume peers).arriveAll arrivals).connections[id]? = some connection :=
        ⟨_, List.getElem?_eq_getElem (by rwa [hlength, hpeers])⟩
      refine ⟨connection, hconnection, _, Value.mapM_encode fun value hvalue => ?_,
        (hup.connections_eq id connection hconnection).output_eq⟩
      rcases List.mem_append.mp hvalue with hreply | hlast
      · rcases List.mem_map.mp hreply with ⟨exchange, hexchange, rfl⟩
        exact hup.written exchange (List.mem_filter.mp hexchange).1
      · exact encodeFault_lastReply (Option.mem_toList.mp hlast)
    lastReply_iff := fun id => lastReply_isSome
    lastReply_eq := fun id reply hreply => by
      rcases Option.map_eq_some_iff.mp hreply with ⟨reason, -, hsame⟩
      exact ⟨reason, hsame.symm⟩
    isOpen_iff := fun id connection hconnection => by
      rw [(hup.connections_eq id connection hconnection).isOpen_eq]
      simp
    rejected := fun before id request error hparse => by
      rw [Server.answerAll_append]
      simp only [Server.answerAll, Server.process_of_parse_error hparse]
    alone := fun id connection hconnection halone => by
      rw [(hup.connections_eq id connection hconnection).output_eq, hup.replies_alone halone]
      rfl }

/-- A write arrives in pieces, between which another client asks for the key,
sends a status instead of a request, and breaks off inside a value. -/
theorem arriveAll_inTurn_pieces :
    (Keyspace.empty.put [0x6B] (some (.bulk [0x61]))).Plain ∧
      Limits.standard.array < 2 ^ 63 ∧
      (Server.create "localhost" 6379 .standard
        (Keyspace.empty.put [0x6B] (some (.bulk [0x61]))) none).logIsHalfClosed = false ∧
      ((ofPeers
          (.create "localhost" 6379 .standard
            (Keyspace.empty.put [0x6B] (some (.bulk [0x61]))) none)
          ⟨.absent, false⟩ ["writer", "reader"]).arriveAll
        [.octets 0 (Bytes.ofString "*3\r\n$3\r\nSET\r\n$1\r"),
          .octets 1 (Bytes.ofString "*2\r\n$3\r\nGET\r\n$1\r\nk\r\n+OK\r\n*1"),
          .octets 0 (Bytes.ofString "\nk\r\n$1\r\nb\r\n"),
          .finish 1]).InTurn
        (.create "localhost" 6379 .standard
          (Keyspace.empty.put [0x6B] (some (.bulk [0x61]))) none)
        ["writer", "reader"]
        [.octets 0 (Bytes.ofString "*3\r\n$3\r\nSET\r\n$1\r"),
          .octets 1 (Bytes.ofString "*2\r\n$3\r\nGET\r\n$1\r\nk\r\n+OK\r\n*1"),
          .octets 0 (Bytes.ofString "\nk\r\n$1\r\nb\r\n"),
          .finish 1] :=
  have hplain := Keyspace.Plain.empty.put [0x6B] [0x61]
  ⟨hplain, by decide, rfl, arriveAll_inTurn hplain (by decide) rfl _ (by decide)⟩

end Deployment

end DurableStore
