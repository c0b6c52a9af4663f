import DurableStore.Proofs.Client.Network

/-!
# Calls and their replies

At every point of a run, what is under way between a client and its server are the octets
of one request, or those of one reply, or nothing.  So the server finds the request of the
call and nothing else, and the call finds the reply to it and nothing else: every run can
be minuted.  A call during which nothing else happens goes the same way.

Main results:

- Theorems `Stream.Sound.next_waiting` and `Stream.Sound.next_value`: what a stream with
  octets of a single value yields.
- Definition `Endpoint.Agrees`: what is under way on a connection.
- Structure `Network.Kept`: both ends of every connection are as the minutes say.
- Theorems `Network.Kept.step` and `Network.Kept.run`: every run can be minuted.
- Theorem `Network.Kept.completes`: every call can return.
- Theorem `Network.Kept.call_alone`: a call during which nothing else happens.
-/

namespace DurableStore

/-! ## Octets of one value -/

namespace Stream

variable {limits : Limits} {stream : Stream} {value : Value}

/-- An open stream that lacks some octets of a value waits for them. -/
theorem Sound.next_waiting (hsound : stream.Sound limits) (hclosed : stream.closed = false)
    (hholds : value.written.Holds limits) {missing : Bytes} (hmissing : missing ≠ [])
    (hoctets : stream.octets ++ missing = value.wire) :
    ∃ left, stream.next limits Settings.readSize = (.waiting, left) ∧
      left.octets = stream.octets ∧ left.closed = false ∧ left.Sound limits := by
  obtain ⟨left, hnext, hleft, hstill, hsafe⟩ := hsound.next (show 0 < Settings.readSize by decide)
  have hread := hholds []
  rw [List.append_nil, Value.written, ← hoctets] at hread
  rcases judge_cases limits stream.octets with
    ⟨first, rest, hfirst, hstart⟩ | ⟨error, hshort⟩ | ⟨error, hobstacle⟩
  · -- The octets of no value go on with more octets of the same value.
    rw [hstart, List.append_assoc, hfirst] at hread
    simp only [Except.ok.injEq, Prod.mk.injEq, Cursor.mk.injEq, List.append_eq_nil_iff] at hread
    exact absurd hread.2.2.2 hmissing
  · rw [judge_short hshort.1 hshort.2, hclosed] at hnext
    rw [judge_short hshort.1 hshort.2] at hleft
    exact ⟨left, hnext, hleft, hstill.trans hclosed, hsafe⟩
  · obtain ⟨hfails, -⟩ := obstacle_eq_some.mp (obstacle_append hobstacle missing)
    rw [hread] at hfails
    cases hfails

/-- A stream that has got the octets of a value yields it. -/
theorem Sound.next_value (hsound : stream.Sound limits) (hholds : value.written.Holds limits)
    (hoctets : stream.octets = value.wire) :
    ∃ left, stream.next limits Settings.readSize = (.value value, left) ∧
      left.octets = [] ∧ left.closed = stream.closed ∧ left.Sound limits := by
  obtain ⟨left, hnext, hleft, hstill, hsafe⟩ := hsound.next (show 0 < Settings.readSize by decide)
  have hjudge := judge_record hholds []
  rw [List.append_nil] at hjudge
  rw [hoctets, show value.wire = value.written.octets from rfl, hjudge] at hnext hleft
  exact ⟨left, hnext, hleft, hstill, hsafe⟩

/-- An open stream without octets waits for some. -/
theorem Sound.next_empty (hsound : stream.Sound limits) (hclosed : stream.closed = false)
    (hoctets : stream.octets = []) :
    ∃ left, stream.next limits Settings.readSize = (.waiting, left) ∧
      left.octets = [] ∧ left.closed = false ∧ left.Sound limits := by
  have hholds : Value.null.written.Holds limits := Value.written_holds rfl trivial
  obtain ⟨left, hnext, hleft, hstill, hsafe⟩ :=
    hsound.next_waiting hclosed hholds hholds.ne_nil (by rw [hoctets]; rfl)
  exact ⟨left, hnext, hleft.trans hoctets, hstill, hsafe⟩

end Stream

/-! ## Turns -/

namespace Server

variable {server : Server} {connection : Connection} {left : Stream} {request : Value}

/-- A turn answers the request that the stream of its connection yields, unless the log is half
closed. -/
theorem turn_of_value (hwhole : server.logIsHalfClosed = false) (hopen : connection.isOpen = true)
    (hnext : connection.stream.next server.limits Settings.readSize = (.value request, left)) :
    ∃ notices, server.turn connection =
      ⟨.served request (server.process request).reply, (server.process request).server,
        ({ connection with stream := left }.reply (server.process request).reply).1, notices⟩ := by
  simp [turn, hopen, hnext, Connection.respond_process hwhole]

/-- A turn that has to wait answers nothing. -/
theorem turn_of_waiting (hopen : connection.isOpen = true)
    (hnext : connection.stream.next server.limits Settings.readSize = (.waiting, left)) :
    server.turn connection = ⟨.idle, server, { connection with stream := left }, []⟩ := by
  simp [turn, hopen, hnext]

/-- A connection on which a single request has arrived is served with the reply to it. -/
theorem serve_request (hwhole : server.logIsHalfClosed = false)
    (hopen : connection.isOpen = true) (hdrains : connection.drainFails = false)
    (hsound : connection.stream.Sound server.limits) (hgoing : connection.stream.closed = false)
    (hholds : request.written.Holds server.limits)
    (hoctets : connection.stream.octets = request.wire)
    (hwritten : (server.process request).reply.encodeFault? = none) :
    ∃ left, (server.serve connection).connection = { connection with
      stream := left
      sent := (server.process request).reply.wire :: connection.sent } := by
  obtain ⟨between, hnext, hempty, hstill, hsafe⟩ := hsound.next_value hholds hoctets
  obtain ⟨notices, hturn⟩ := turn_of_value hwhole hopen hnext
  rw [Connection.reply_spec hwritten (by exact hdrains)] at hturn
  obtain ⟨left, hlast, -⟩ := hsafe.next_empty (hstill.trans hgoing) hempty
  rw [← (server.process_cases request).1] at hlast
  have hidle := turn_of_waiting (show Connection.isOpen { connection with
    stream := between
    sent := (server.process request).reply.wire :: connection.sent } = true from hopen) hlast
  obtain ⟨size, hsize⟩ : ∃ size, connection.stream.size = size + 1 := by
    apply Nat.exists_eq_succ_of_ne_zero
    have hpositive : 0 < request.wire.length := List.length_pos_iff.mpr hholds.ne_nil
    rw [← hoctets, Stream.octets, List.length_append] at hpositive
    exact Nat.ne_of_gt hpositive
  refine ⟨left, ?_⟩
  rw [serve, hsize]
  simp only [serveWithin, hturn, hidle]

end Server

namespace Deployment

variable {deployment : Deployment} {id : Nat} {connection : Connection} {left : Stream}

/-- A turn answers the request that the stream of its connection yields, unless the log is half
closed. -/
theorem turn_of_value {request : Value} (hwhole : deployment.server.logIsHalfClosed = false)
    (hconnection : deployment.connections[id]? = some connection)
    (hopen : connection.isOpen = true)
    (hnext : connection.stream.next deployment.server.limits Settings.readSize =
      (.value request, left)) :
    (deployment.answered (.turn id)).map Transaction.exchange =
        [⟨id, request, (deployment.server.process request).reply⟩] ∧
      (deployment.turn id).deployment.connections = deployment.connections.set id
        ({ connection with stream := left }.reply
          (deployment.server.process request).reply).1 := by
  obtain ⟨notices, hturn⟩ := Server.turn_of_value hwhole hopen hnext
  constructor
  · simp [answered, hconnection, hturn]
  · simp [turn, hconnection, hturn, Outcome.quiet]

/-- A turn that has to wait answers nothing. -/
theorem turn_of_waiting (hconnection : deployment.connections[id]? = some connection)
    (hopen : connection.isOpen = true)
    (hnext : connection.stream.next deployment.server.limits Settings.readSize =
      (.waiting, left)) :
    deployment.answered (.turn id) = [] ∧
      (deployment.turn id).deployment.connections =
        deployment.connections.set id { connection with stream := left } := by
  have hturn := Server.turn_of_waiting hopen hnext
  constructor
  · simp [answered, hconnection, hturn]
  · simp [turn, hconnection, hturn, Outcome.quiet]

/-- A turn on a connection that does not exist does nothing. -/
theorem turn_of_none (hconnection : deployment.connections[id]? = none) :
    deployment.answered (.turn id) = [] ∧
      (deployment.turn id).deployment.connections = deployment.connections := by
  constructor
  · simp [answered, hconnection]
  · simp [turn, hconnection, Outcome.quiet]

/-- When a single request arrives, the reply to it is sent. -/
theorem receive_request {request : Value} (hwhole : deployment.server.logIsHalfClosed = false)
    (hconnection : deployment.connections[id]? = some connection)
    (hopen : connection.isOpen = true) (hdrains : connection.drainFails = false)
    (hsound : connection.stream.Sound deployment.server.limits)
    (hgoing : connection.stream.closed = false) (hserver : connection.stream.octets = [])
    (hholds : request.written.Holds deployment.server.limits)
    (hwritten : (deployment.server.process request).reply.encodeFault? = none) :
    ∃ left, (deployment.receive id request.wire).deployment.connections[id]? =
      some { connection with
        stream := left
        sent := (deployment.server.process request).reply.wire :: connection.sent } := by
  have hdelivered : (deployment.alter id fun connection =>
      connection.deliver request.wire).connections[id]? =
        some { connection with stream := connection.stream.feed request.wire } := by
    rw [alter, List.getElem?_modify, hconnection]
    simp [Connection.deliver, hopen]
  have hid := (List.getElem?_eq_some_iff.mp hdelivered).1
  have hfed : (connection.stream.feed request.wire).octets = request.wire := by
    rw [Stream.octets, Stream.feed, ← List.append_assoc]
    change connection.stream.octets ++ request.wire = request.wire
    rw [hserver, List.nil_append]
  obtain ⟨left, hserve⟩ := Server.serve_request hwhole (show Connection.isOpen { connection with
    stream := connection.stream.feed request.wire } = true from hopen) hdrains hsound hgoing hholds
    hfed hwritten
  refine ⟨left, ?_⟩
  simp only [receive, settle, hdelivered, Outcome.quiet]
  rw [List.getElem?_set_self hid]
  exact congrArg some hserve

end Deployment

/-- What an event answers comes behind what has been answered. -/
theorem History.exchanges_step (history : History) (event : Event) :
    (history.step event).exchanges = history.exchanges ++
      (history.deployment.answered event).map Transaction.exchange := by
  rw [exchanges, exchanges, step, List.map_append]

/-- The octets sent to a client are those of the replies, one behind the other. -/
theorem Connection.output_eq_flatten (connection : Connection) :
    connection.output = connection.sent.reverse.flatten := by
  rw [output, outputAfter, Nat.sub_zero, List.take_length]

/-! ## Both ends of a connection -/

namespace Endpoint

/-- A connection goes on, and both ends of it are sound. -/
structure Linked (limits : Limits) (endpoint : Endpoint) (connection : Connection) : Prop where
  limits_eq : endpoint.limits = limits
  isOpen : connection.isOpen = true
  drains : connection.drainFails = false
  server_sound : connection.stream.Sound limits
  server_going : connection.stream.closed = false
  client_sound : endpoint.stream.Sound limits
  client_going : endpoint.stream.closed = false
  brought_le : endpoint.brought ≤ connection.output.length

/-- What is under way on a connection when its client has come this far with its call: the
octets of the request, or those of the reply, and nothing else. -/
inductive Agrees (limits : Limits) (endpoint : Endpoint) (connection : Connection) :
    CallPhase → Prop
  | idle (hcalling : endpoint.isCalling = false) (houtgoing : endpoint.outgoing = [])
      (hserver : connection.stream.octets = []) (hclient : endpoint.stream.octets = [])
      (hbrought : connection.output.drop endpoint.brought = []) :
      Agrees limits endpoint connection .idle
  | asked {invocation : Invocation} {request : Value} (hcalling : endpoint.isCalling = true)
      (hrequest : invocation.request = .ok request) (hholds : request.written.Holds limits)
      (hoctets : connection.stream.octets ++ endpoint.outgoing = request.wire)
      (hclient : endpoint.stream.octets = [])
      (hbrought : connection.output.drop endpoint.brought = []) :
      Agrees limits endpoint connection (.asked invocation)
  | answered {reply : Value} (hcalling : endpoint.isCalling = true)
      (houtgoing : endpoint.outgoing = []) (hserver : connection.stream.octets = [])
      (hholds : reply.written.Holds limits)
      (hoctets : endpoint.stream.octets ++ connection.output.drop endpoint.brought = reply.wire) :
      Agrees limits endpoint connection (.answered reply)

variable {limits : Limits} {endpoint : Endpoint} {connection : Connection} {phase : CallPhase}

/-- Nothing is under way on a connection that has just been made. -/
theorem agrees_fresh (limits : Limits) (peer : String) :
    Linked limits ⟨limits, [], 0, .empty, false⟩ (.fresh peer) ∧
      Agrees limits ⟨limits, [], 0, .empty, false⟩ (.fresh peer) .idle :=
  ⟨⟨rfl, rfl, rfl, Receiver.sound_empty, rfl, Receiver.sound_empty, rfl, Nat.zero_le _⟩,
    .idle rfl rfl rfl rfl rfl⟩

/-- It does not matter which octets that wait at one end have been looked at. -/
theorem Agrees.congr (hagrees : Agrees limits endpoint connection phase) {client server : Stream}
    (hsame : client.octets = endpoint.stream.octets)
    (hequal : server.octets = connection.stream.octets) :
    Agrees limits { endpoint with stream := client } { connection with stream := server }
      phase := by
  cases hagrees with
  | idle hcalling houtgoing hserver hclient hbrought =>
      exact .idle hcalling houtgoing (hequal.trans hserver) (hsame.trans hclient) hbrought
  | asked hcalling hrequest hholds hoctets hclient hbrought =>
      refine .asked hcalling hrequest hholds ?_ (hsame.trans hclient) hbrought
      rw [hequal, hoctets]
  | answered hcalling houtgoing hserver hholds hoctets =>
      refine .answered hcalling houtgoing (hequal.trans hserver) hholds ?_
      rw [hsame, ← hoctets]
      rfl

/-- Octets that reach the server are still under way to its handler. -/
theorem Agrees.carry (hagrees : Agrees limits endpoint connection phase) (count : Nat) :
    Agrees limits { endpoint with outgoing := endpoint.outgoing.drop count }
      { connection with
        stream := connection.stream.feed (endpoint.outgoing.take count) } phase := by
  have hfed : (connection.stream.feed (endpoint.outgoing.take count)).octets =
      connection.stream.octets ++ endpoint.outgoing.take count := by
    rw [Stream.octets, Stream.octets, Stream.feed, List.append_assoc]
  cases hagrees with
  | idle hcalling houtgoing hserver hclient hbrought =>
      refine .idle hcalling ?_ ?_ hclient hbrought
      · rw [houtgoing, List.drop_nil]
      · rw [hfed, houtgoing, hserver, List.take_nil, List.append_nil]
  | asked hcalling hrequest hholds hoctets hclient hbrought =>
      refine .asked hcalling hrequest hholds ?_ hclient hbrought
      rw [hfed, List.append_assoc, List.take_append_drop, hoctets]
  | answered hcalling houtgoing hserver hholds hoctets =>
      refine .answered hcalling ?_ ?_ hholds hoctets
      · rw [houtgoing, List.drop_nil]
      · rw [hfed, houtgoing, hserver, List.take_nil, List.append_nil]

/-- Octets that reach the client are still under way to its call. -/
theorem Agrees.bring (hagrees : Agrees limits endpoint connection phase) (count : Nat) :
    Agrees limits
      { endpoint with
        brought := endpoint.brought +
          ((connection.output.drop endpoint.brought).take count).length
        stream := endpoint.stream.feed ((connection.output.drop endpoint.brought).take count) }
      connection phase := by
  have hfed : (endpoint.stream.feed ((connection.output.drop endpoint.brought).take count)).octets =
      endpoint.stream.octets ++ (connection.output.drop endpoint.brought).take count := by
    rw [Stream.octets, Stream.octets, Stream.feed, List.append_assoc]
  have hleft : connection.output.drop (endpoint.brought +
      ((connection.output.drop endpoint.brought).take count).length) =
        (connection.output.drop endpoint.brought).drop count := by
    rw [← List.drop_drop]
    generalize connection.output.drop endpoint.brought = octets
    rw [List.length_take]
    by_cases hcount : count ≤ octets.length
    · rw [Nat.min_eq_left hcount]
    · rw [Nat.min_eq_right (by omega), List.drop_length, List.drop_eq_nil_of_le (by omega)]
  cases hagrees with
  | idle hcalling houtgoing hserver hclient hbrought =>
      refine .idle hcalling houtgoing hserver ?_ ?_
      · rw [hfed, hbrought, hclient, List.take_nil, List.append_nil]
      · rw [hleft, hbrought, List.drop_nil]
  | asked hcalling hrequest hholds hoctets hclient hbrought =>
      refine .asked hcalling hrequest hholds hoctets ?_ ?_
      · rw [hfed, hbrought, hclient, List.take_nil, List.append_nil]
      · rw [hleft, hbrought, List.drop_nil]
  | answered hcalling houtgoing hserver hholds hoctets =>
      refine .answered hcalling houtgoing hserver hholds ?_
      rw [hfed, hleft, List.append_assoc, List.take_append_drop, hoctets]

end Endpoint

/-! ## Runs that are minuted -/

namespace Network

/-- The notes of a network have been minuted, and both ends of every connection are as the
minutes say. -/
structure Kept (server : Server) (minutes : Minutes) (network : Network) : Prop where
  answers : network.history.Answers server
  whole : network.history.deployment.server.logIsHalfClosed = false
  minutes_eq : Minutes.ofNotes network.notes = some minutes
  calls_eq : minutes.calls.map AnsweredCall.exchange = network.history.exchanges
  length_eq : network.endpoints.length = network.history.deployment.connections.length
  linked : ∀ (id : Nat) (endpoint : Endpoint) (connection : Connection),
    network.endpoints[id]? = some endpoint →
    network.history.deployment.connections[id]? = some connection →
    endpoint.Linked server.limits connection ∧
      endpoint.Agrees server.limits connection (minutes.phase id)

namespace Kept

variable {server : Server} {minutes later : Minutes} {network after : Network} {id : Nat}
  {endpoint : Endpoint} {connection : Connection}

/-- Nothing has been noted at first. -/
theorem start (hwhole : server.logIsHalfClosed = false) (volume : Volume) (peers : List String) :
    (Network.start server volume peers).Kept server .blank where
  answers := (History.Underway.ofPeers hwhole volume peers).answers
  whole := hwhole
  minutes_eq := rfl
  calls_eq := rfl
  length_eq := by
    simp [Network.start, History.ofPeers, Deployment.ofPeers]
  linked := by
    intro id endpoint connection hendpoint hconnection
    change (peers.map _)[id]? = some endpoint at hendpoint
    change (peers.map _)[id]? = some connection at hconnection
    rw [List.getElem?_map, Option.map_eq_some_iff] at hendpoint hconnection
    obtain ⟨peer, -, rfl⟩ := hendpoint
    obtain ⟨peer', -, rfl⟩ := hconnection
    exact Endpoint.agrees_fresh server.limits peer'

/-- Every client has a connection. -/
theorem exists_connection (hkept : network.Kept server minutes)
    (hendpoint : network.endpoints[id]? = some endpoint) :
    ∃ connection, network.history.deployment.connections[id]? = some connection := by
  have hid := (List.getElem?_eq_some_iff.mp hendpoint).1
  rw [hkept.length_eq] at hid
  exact ⟨_, List.getElem?_eq_getElem hid⟩

/-- Traffic does not leave the log half closed. -/
theorem whole_step (hkept : network.Kept server minutes) {event : Event}
    (htraffic : event.isTraffic = true) :
    (network.history.step event).deployment.server.logIsHalfClosed = false :=
  (Deployment.logIsHalfClosed_step htraffic).trans hkept.whole

/-- Nothing happens to connections and clients. -/
theorem frame (hkept : network.Kept server minutes) (hanswers : after.history.Answers server)
    (hwhole : after.history.deployment.server.logIsHalfClosed = false)
    (hnotes : after.notes = network.notes)
    (hexchanges : after.history.exchanges = network.history.exchanges)
    (hendpoints : after.endpoints = network.endpoints)
    (hconnections : after.history.deployment.connections =
      network.history.deployment.connections) : after.Kept server minutes where
  answers := hanswers
  whole := hwhole
  minutes_eq := by rw [hnotes, hkept.minutes_eq]
  calls_eq := by rw [hexchanges, hkept.calls_eq]
  length_eq := by rw [hendpoints, hconnections, hkept.length_eq]
  linked := by
    rw [hendpoints, hconnections]
    exact hkept.linked

/-- Something happens to one connection and its client. -/
theorem update (hkept : network.Kept server minutes) (hanswers : after.history.Answers server)
    (hwhole : after.history.deployment.server.logIsHalfClosed = false)
    (hminutes : Minutes.ofNotes after.notes = some later)
    (hcalls : later.calls.map AnsweredCall.exchange = after.history.exchanges)
    (hendpoints : after.endpoints = network.endpoints.set id endpoint)
    (hconnections : after.history.deployment.connections =
      network.history.deployment.connections.set id connection)
    (hphase : ∀ other, other ≠ id → later.phase other = minutes.phase other)
    (hlinked : endpoint.Linked server.limits connection)
    (hagrees : endpoint.Agrees server.limits connection (later.phase id)) :
    after.Kept server later where
  answers := hanswers
  whole := hwhole
  minutes_eq := hminutes
  calls_eq := hcalls
  length_eq := by rw [hendpoints, hconnections, List.length_set, List.length_set, hkept.length_eq]
  linked := by
    intro other otherEndpoint otherConnection hendpoint hconnection
    rw [hendpoints] at hendpoint
    rw [hconnections] at hconnection
    by_cases hother : other = id
    · subst hother
      have hid := (List.getElem?_eq_some_iff.mp hendpoint).1
      rw [List.length_set] at hid
      rw [List.getElem?_set_self hid] at hendpoint
      rw [List.getElem?_set_self (hkept.length_eq ▸ hid)] at hconnection
      obtain rfl := Option.some.inj hendpoint
      obtain rfl := Option.some.inj hconnection
      exact ⟨hlinked, hagrees⟩
    · rw [List.getElem?_set_ne (Ne.symm hother)] at hendpoint hconnection
      rw [hphase other hother]
      exact hkept.linked other otherEndpoint otherConnection hendpoint hconnection

/-- A list is not changed by what is there already. -/
theorem set_of_getElem {α : Type} {list : List α} {item : α} (hitem : list[id]? = some item) :
    list.set id item = list := by
  obtain ⟨hid, rfl⟩ := List.getElem?_eq_some_iff.mp hitem
  exact List.set_getElem_self hid

/-- A call is made when none is under way. -/
theorem call (hkept : network.Kept server minutes) (id : Nat) (invocation : Invocation)
    (hrequest : (Motion.call id invocation).requestFits server.limits = true) :
    ∃ later, (network.call id invocation).Kept server later := by
  unfold Network.call
  split
  · rename_i endpoint octets hendpoint hoctets
    split
    · exact ⟨minutes, hkept⟩
    · rename_i hcalling
      obtain ⟨connection, hconnection⟩ := hkept.exists_connection hendpoint
      obtain ⟨hlinked, hagrees⟩ := hkept.linked id endpoint connection hendpoint hconnection
      obtain ⟨request, hasked, rfl⟩ := Invocation.request_of_octets hoctets
      simp only [Motion.requestFits, hasked, decide_eq_true_eq] at hrequest
      have hholds := Value.written_holds (Invocation.encodeFault_of_request hasked) hrequest
      generalize hphase : minutes.phase id = phase at hagrees
      cases hagrees with
      | asked hyes => exact absurd hyes hcalling
      | answered hyes => exact absurd hyes hcalling
      | idle _ houtgoing hserver hclient hbrought =>
          refine ⟨minutes.advance id (.asked invocation), ?_⟩
          refine hkept.update hkept.answers hkept.whole ?_ hkept.calls_eq rfl
            (set_of_getElem hconnection).symm ?_ ?_ ?_
          · rw [Minutes.ofNotes_concat hkept.minutes_eq, Minutes.enter, hphase]
          · intro other hother
            exact minutes.phase_advance_of_ne hother _
          · exact ⟨hlinked.limits_eq, hlinked.isOpen, hlinked.drains, hlinked.server_sound,
              hlinked.server_going, hlinked.client_sound, hlinked.client_going, hlinked.brought_le⟩
          · rw [minutes.phase_advance]
            refine .asked rfl hasked hholds ?_ hclient hbrought
            rw [hserver, houtgoing, List.nil_append, List.nil_append]
  · exact ⟨minutes, hkept⟩

/-- Octets reach the server. -/
theorem carry (hkept : network.Kept server minutes) (id count : Nat) :
    (network.carry id count).Kept server minutes := by
  unfold Network.carry
  split
  · rename_i endpoint hendpoint
    obtain ⟨connection, hconnection⟩ := hkept.exists_connection hendpoint
    obtain ⟨hlinked, hagrees⟩ := hkept.linked id endpoint connection hendpoint hconnection
    have hset : (network.history.step (.deliver id (endpoint.outgoing.take count))
        ).deployment.connections = network.history.deployment.connections.set id
          { connection with
            stream := connection.stream.feed (endpoint.outgoing.take count) } := by
      change network.history.deployment.connections.modify id _ = _
      rw [List.modify_eq_set_getElem?, hconnection]
      simp [Connection.deliver, hlinked.isOpen]
    refine hkept.update (hkept.answers.step (by simp)) (hkept.whole_step rfl) hkept.minutes_eq ?_
      rfl hset ?_ ?_ ?_
    · rw [hkept.calls_eq, History.exchanges_step]
      exact (List.append_nil _).symm
    · intro other _
      rfl
    · exact { hlinked with
        server_sound := hlinked.server_sound
        server_going := hlinked.server_going }
    · exact hagrees.carry count
  · exact hkept

/-- A turn that has to wait changes nothing. -/
theorem turn_waiting (hkept : network.Kept server minutes)
    (hconnection : network.history.deployment.connections[id]? = some connection)
    (hendpoint : network.endpoints[id]? = some endpoint) {left : Stream}
    (hnext : connection.stream.next server.limits Settings.readSize = (.waiting, left))
    (hoctets : left.octets = connection.stream.octets) (hgoing : left.closed = false)
    (hsound : left.Sound server.limits) :
    (network.atServer (.turn id)).Kept server minutes := by
  obtain ⟨hlinked, hagrees⟩ := hkept.linked id endpoint connection hendpoint hconnection
  rw [← hkept.answers.limits_eq] at hnext
  obtain ⟨hanswered, hset⟩ := Deployment.turn_of_waiting hconnection hlinked.isOpen hnext
  refine hkept.update (hkept.answers.step (by simp)) (hkept.whole_step rfl) ?_ ?_
    (set_of_getElem hendpoint).symm hset ?_ ?_ ?_
  · rw [Network.atServer, hanswered, List.map_nil, List.append_nil, hkept.minutes_eq]
  · rw [hkept.calls_eq, Network.atServer, History.exchanges_step, hanswered, List.map_nil,
      List.append_nil]
  · intro other _
    rfl
  · exact { hlinked with server_sound := hsound, server_going := hgoing }
  · exact hagrees.congr rfl hoctets

/-- A turn answers the request of a call when all octets of it have arrived. -/
theorem turn_asked (hkept : network.Kept server minutes)
    (hconnection : network.history.deployment.connections[id]? = some connection)
    (hendpoint : network.endpoints[id]? = some endpoint) {invocation : Invocation}
    {request : Value} (hphase : minutes.phase id = .asked invocation)
    (hcalling : endpoint.isCalling = true) (hrequest : invocation.request = .ok request)
    (hholds : request.written.Holds server.limits) (houtgoing : endpoint.outgoing = [])
    (hoctets : connection.stream.octets = request.wire) (hclient : endpoint.stream.octets = [])
    (hbrought : connection.output.drop endpoint.brought = [])
    (hreplies : (network.atServer (.turn id)).RepliesFit server.limits) :
    ∃ later, (network.atServer (.turn id)).Kept server later ∧
      ∀ invocation, later.phase id ≠ .asked invocation := by
  obtain ⟨hlinked, -⟩ := hkept.linked id endpoint connection hendpoint hconnection
  obtain ⟨left, hnext, hleft, hgoing, hsound⟩ := hlinked.server_sound.next_value hholds hoctets
  rw [← hkept.answers.limits_eq] at hnext
  obtain ⟨hanswered, hset⟩ := Deployment.turn_of_value hkept.whole hconnection hlinked.isOpen hnext
  generalize (network.history.deployment.server.process request).reply = reply at hanswered hset
  have hexchanges : (network.atServer (.turn id)).history.exchanges =
      network.history.exchanges ++ [⟨id, request, reply⟩] := by
    rw [Network.atServer, History.exchanges_step, hanswered]
  obtain ⟨hwritten, hfits⟩ := hreplies ⟨id, request, reply⟩ (by rw [hexchanges]; simp)
  rw [Connection.reply_spec hwritten (by exact hlinked.drains)] at hset
  have houtput : ∀ stream, Connection.output
      { connection with stream, sent := reply.wire :: connection.sent } =
        connection.output ++ reply.wire := by
    intro stream
    simp [Connection.output_eq_flatten]
  have hthen : (minutes.advance id (.answered reply)).phase id = .answered reply :=
    minutes.phase_advance id _
  refine ⟨{ minutes.advance id (.answered reply) with
    calls := minutes.calls ++ [⟨invocation, ⟨id, request, reply⟩⟩] }, ?_, by simp [hthen]⟩
  refine hkept.update (hkept.answers.step (by simp)) (hkept.whole_step rfl) ?_ ?_
    (set_of_getElem hendpoint).symm hset ?_ ?_ ?_
  · have hnotes : (network.atServer (.turn id)).notes =
        network.notes ++ [.answered ⟨id, request, reply⟩] := by
      have hmapped := congrArg (List.map Note.answered) hanswered
      rw [List.map_map] at hmapped
      rw [Network.atServer]
      exact congrArg (network.notes ++ ·) hmapped
    rw [hnotes, Minutes.ofNotes_concat hkept.minutes_eq]
    simp [Minutes.enter, hphase, hrequest]
  · rw [hexchanges, List.map_append, hkept.calls_eq]
    rfl
  · intro other hother
    exact minutes.phase_advance_of_ne hother _
  · refine { hlinked with
      isOpen := hlinked.isOpen
      drains := hlinked.drains
      server_sound := hsound
      server_going := hgoing.trans hlinked.server_going
      brought_le := ?_ }
    rw [houtput, List.length_append]
    exact Nat.le_add_right_of_le hlinked.brought_le
  · change endpoint.Agrees _ _ ((minutes.advance id (.answered reply)).phase id)
    rw [hthen]
    refine .answered hcalling houtgoing hleft (Value.written_holds hwritten hfits) ?_
    rw [houtput, List.drop_append_of_le_length hlinked.brought_le, hbrought, hclient]
    rfl

/-- A turn answers the request of a call, if all octets of it have arrived. -/
theorem turn (hkept : network.Kept server minutes) (id : Nat)
    (hreplies : (network.atServer (.turn id)).RepliesFit server.limits) :
    ∃ later, (network.atServer (.turn id)).Kept server later ∧
      ∀ endpoint, network.endpoints[id]? = some endpoint → endpoint.outgoing = [] →
        ∀ invocation, later.phase id ≠ .asked invocation := by
  cases hendpoint : network.endpoints[id]? with
  | none =>
      have hnone : network.history.deployment.connections[id]? = none := by
        rw [List.getElem?_eq_none_iff] at hendpoint ⊢
        rwa [← hkept.length_eq]
      obtain ⟨hanswered, hsame⟩ := Deployment.turn_of_none hnone
      refine ⟨minutes, hkept.frame (hkept.answers.step (by simp)) (hkept.whole_step rfl) ?_ ?_ rfl
        hsame, by simp⟩
      · rw [Network.atServer, hanswered, List.map_nil, List.append_nil]
      · rw [Network.atServer, History.exchanges_step, hanswered, List.map_nil, List.append_nil]
  | some endpoint =>
      obtain ⟨connection, hconnection⟩ := hkept.exists_connection hendpoint
      obtain ⟨hlinked, hagrees⟩ := hkept.linked id endpoint connection hendpoint hconnection
      have hempty : connection.stream.octets = [] →
          (network.atServer (.turn id)).Kept server minutes := by
        intro hserver
        obtain ⟨left, hnext, hleft, hgoing, hsound⟩ :=
          hlinked.server_sound.next_empty hlinked.server_going hserver
        exact hkept.turn_waiting hconnection hendpoint hnext (hleft.trans hserver.symm) hgoing
          hsound
      generalize hphase : minutes.phase id = phase at hagrees
      cases hagrees with
      | idle _ _ hserver => exact ⟨minutes, hempty hserver, by simp [hphase]⟩
      | answered _ _ hserver => exact ⟨minutes, hempty hserver, by simp [hphase]⟩
      | asked hcalling hrequest hholds hoctets hclient hbrought =>
          by_cases houtgoing : endpoint.outgoing = []
          · rw [houtgoing, List.append_nil] at hoctets
            obtain ⟨later, hlater, hanswered⟩ := hkept.turn_asked hconnection hendpoint hphase
              hcalling hrequest hholds houtgoing hoctets hclient hbrought hreplies
            exact ⟨later, hlater, fun _ _ _ => hanswered⟩
          · obtain ⟨left, hnext, hleft, hgoing, hsound⟩ :=
              hlinked.server_sound.next_waiting hlinked.server_going hholds houtgoing hoctets
            refine ⟨minutes,
              hkept.turn_waiting hconnection hendpoint hnext hleft hgoing hsound, ?_⟩
            intro other hother hnothing
            obtain rfl := Option.some.inj hother
            exact absurd hnothing houtgoing

/-- A round of the flusher concerns no call. -/
theorem flush (hkept : network.Kept server minutes) :
    (network.atServer .flush).Kept server minutes := by
  refine hkept.frame (hkept.answers.step (by simp)) (hkept.whole_step rfl) (List.append_nil _) ?_
    rfl ?_
  · rw [Network.atServer, History.exchanges_step]
    exact List.append_nil _
  · exact (network.history.deployment.actOnLog_frame Log.tick).1

/-- Octets reach a client. -/
theorem bring (hkept : network.Kept server minutes) (id count : Nat) :
    (network.bring id count).Kept server minutes := by
  unfold Network.bring
  split
  · rename_i endpoint connection hendpoint hconnection
    obtain ⟨hlinked, hagrees⟩ := hkept.linked id endpoint connection hendpoint hconnection
    simp only [hlinked.isOpen, Bool.true_or, if_true]
    refine hkept.update hkept.answers hkept.whole hkept.minutes_eq hkept.calls_eq rfl
      (set_of_getElem hconnection).symm ?_ ?_ ?_
    · intro other _
      rfl
    · refine { hlinked with
        client_sound := hlinked.client_sound
        client_going := hlinked.client_going
        brought_le := ?_ }
      have hbefore := hlinked.brought_le
      simp only [List.length_take, List.length_drop]
      omega
    · exact hagrees.bring count
  · exact hkept

/-- A call returns when all octets of its reply have arrived. -/
theorem resume (hkept : network.Kept server minutes) (id : Nat) :
    ∃ later, (network.resume id).Kept server later := by
  unfold Network.resume
  split
  · rename_i endpoint hendpoint
    split
    · rename_i hcalling
      obtain ⟨connection, hconnection⟩ := hkept.exists_connection hendpoint
      obtain ⟨hlinked, hagrees⟩ := hkept.linked id endpoint connection hendpoint hconnection
      have hunmoved := (set_of_getElem hconnection).symm
      have hwaits : ∀ left, left.octets = endpoint.stream.octets → left.closed = false →
          left.Sound server.limits →
          Kept server minutes { network with
            endpoints := network.endpoints.set id { endpoint with stream := left } } := by
        intro left hleft hgoing hsound
        refine hkept.update hkept.answers hkept.whole hkept.minutes_eq hkept.calls_eq rfl hunmoved
          ?_ ?_ ?_
        · intro other _
          rfl
        · exact { hlinked with client_sound := hsound, client_going := hgoing }
        · exact hagrees.congr hleft rfl
      generalize hphase : minutes.phase id = phase at hagrees
      cases hagrees with
      | idle hnone => simp [hnone] at hcalling
      | asked _ _ _ _ hclient =>
          obtain ⟨left, hnext, hleft, hgoing, hsound⟩ :=
            hlinked.client_sound.next_empty hlinked.client_going hclient
          rw [← hlinked.limits_eq] at hnext
          rw [hnext]
          exact ⟨minutes, hwaits left (hleft.trans hclient.symm) hgoing hsound⟩
      | @answered reply _ houtgoing hserver hholds hoctets =>
          by_cases hmissing : connection.output.drop endpoint.brought = []
          · rw [hmissing, List.append_nil] at hoctets
            obtain ⟨left, hnext, hleft, hgoing, hsound⟩ :=
              hlinked.client_sound.next_value hholds hoctets
            rw [← hlinked.limits_eq] at hnext
            rw [hnext]
            refine ⟨minutes.advance id .idle, ?_⟩
            refine hkept.update hkept.answers hkept.whole ?_ hkept.calls_eq rfl hunmoved ?_ ?_ ?_
            · rw [Minutes.ofNotes_concat hkept.minutes_eq]
              simp [Minutes.enter, hphase]
            · intro other hother
              exact minutes.phase_advance_of_ne hother _
            · exact { hlinked with
                client_sound := hsound
                client_going := hgoing.trans hlinked.client_going }
            · rw [minutes.phase_advance]
              exact .idle rfl houtgoing hserver hleft hmissing
          · obtain ⟨left, hnext, hleft, hgoing, hsound⟩ :=
              hlinked.client_sound.next_waiting hlinked.client_going hholds hmissing hoctets
            rw [← hlinked.limits_eq] at hnext
            rw [hnext]
            exact ⟨minutes, hwaits left hleft hgoing hsound⟩
    · exact ⟨minutes, hkept⟩
  · exact ⟨minutes, hkept⟩

/-- Whatever happens, the notes can be minuted. -/
theorem step (hkept : network.Kept server minutes) {motion : Motion}
    (hrequest : motion.requestFits server.limits = true)
    (hreplies : (network.step motion).RepliesFit server.limits) :
    ∃ later, (network.step motion).Kept server later := by
  cases motion with
  | call id invocation => exact hkept.call id invocation hrequest
  | carry id count => exact ⟨minutes, hkept.carry id count⟩
  | turn id =>
      obtain ⟨later, hlater, -⟩ := hkept.turn id hreplies
      exact ⟨later, hlater⟩
  | flush => exact ⟨minutes, hkept.flush⟩
  | bring id count => exact ⟨minutes, hkept.bring id count⟩
  | resume id => exact hkept.resume id

/-- Every run can be minuted. -/
theorem run (hkept : network.Kept server minutes) {motions : List Motion}
    (hrequests : ∀ motion ∈ motions, motion.requestFits server.limits = true)
    (hreplies : (network.run motions).RepliesFit server.limits) :
    ∃ later, (network.run motions).Kept server later := by
  induction motions using List.reverseRecOn with
  | nil => exact ⟨minutes, hkept⟩
  | append_singleton motions motion ih =>
      obtain ⟨hbefore, hmotion⟩ := List.forall_mem_append.mp hrequests
      rw [run_append] at hreplies ⊢
      obtain ⟨between, hbetween⟩ := ih hbefore (RepliesFit.before hreplies)
      exact hbetween.step (hmotion motion List.mem_cons_self) hreplies

/-- A call whose request has been answered returns when its reply has arrived. -/
theorem resume_returns (hkept : network.Kept server minutes)
    (hendpoint : network.endpoints[id]? = some endpoint)
    (hconnection : network.history.deployment.connections[id]? = some connection)
    (hphase : ∀ invocation, minutes.phase id ≠ .asked invocation)
    (hbrought : connection.output.drop endpoint.brought = []) :
    ∃ last, (network.resume id).endpoints[id]? = some last ∧ last.isCalling = false := by
  obtain ⟨hlinked, hagrees⟩ := hkept.linked id endpoint connection hendpoint hconnection
  have hid := (List.getElem?_eq_some_iff.mp hendpoint).1
  unfold Network.resume
  generalize minutes.phase id = phase at hphase hagrees
  cases hagrees with
  | idle hcalling =>
      simp only [hendpoint, hcalling, Bool.false_eq_true, if_false]
      exact ⟨endpoint, rfl, hcalling⟩
  | asked => exact absurd rfl (hphase _)
  | answered hcalling _ _ hholds hoctets =>
      rw [hbrought, List.append_nil] at hoctets
      obtain ⟨left, hnext, -⟩ := hlinked.client_sound.next_value hholds hoctets
      rw [← hlinked.limits_eq] at hnext
      simp only [hendpoint, hcalling, hnext, if_true]
      exact ⟨_, List.getElem?_set_self hid, rfl⟩

/-- All octets that the server has sent can reach a client. -/
theorem bring_all (hkept : network.Kept server minutes)
    (hendpoint : network.endpoints[id]? = some endpoint)
    (hconnection : network.history.deployment.connections[id]? = some connection) :
    (network.bring id connection.output.length).history = network.history ∧
      ∃ last, (network.bring id connection.output.length).endpoints[id]? = some last ∧
        connection.output.drop last.brought = [] := by
  obtain ⟨hlinked, -⟩ := hkept.linked id endpoint connection hendpoint hconnection
  have hid := (List.getElem?_eq_some_iff.mp hendpoint).1
  have hbefore := hlinked.brought_le
  simp only [Network.bring, hendpoint, hconnection]
  refine ⟨trivial, _, List.getElem?_set_self hid, ?_⟩
  apply List.drop_eq_nil_of_le
  simp only [List.length_take, List.length_drop]
  omega

/-- Every call can return: its request arrives and is answered, and the reply arrives. -/
theorem completes (hkept : network.Kept server minutes)
    (hendpoint : network.endpoints[id]? = some endpoint) :
    ∃ sent, (network.run [.carry id sent, .turn id]).RepliesFit server.limits →
      ∃ received last, (network.run [.carry id sent, .turn id, .bring id received,
        .resume id]).endpoints[id]? = some last ∧ last.isCalling = false := by
  refine ⟨endpoint.outgoing.length, fun hreplies => ?_⟩
  have hid := (List.getElem?_eq_some_iff.mp hendpoint).1
  have hcarried : (network.carry id endpoint.outgoing.length).endpoints[id]? =
      some { endpoint with outgoing := [] } := by
    simp only [Network.carry, hendpoint, List.drop_length, List.getElem?_set_self hid]
  obtain ⟨later, hturned, hphase⟩ := (hkept.carry id endpoint.outgoing.length).turn id hreplies
  have hanswered : ((network.carry id endpoint.outgoing.length).atServer
      (.turn id)).endpoints[id]? = some { endpoint with outgoing := [] } := hcarried
  obtain ⟨connection, hconnection⟩ := hturned.exists_connection hanswered
  obtain ⟨hhistory, last, hlast, hbrought⟩ := hturned.bring_all hanswered hconnection
  refine ⟨connection.output.length, ?_⟩
  apply (hturned.bring id connection.output.length).resume_returns hlast _
    (hphase _ hcarried rfl) hbrought
  rw [hhistory, hconnection]

/-- A call during which nothing else happens returns the reply to its request. -/
theorem call_alone (hkept : network.Kept server minutes)
    (hendpoint : network.endpoints[id]? = some endpoint)
    (hconnection : network.history.deployment.connections[id]? = some connection)
    (hidle : endpoint.isCalling = false) {invocation : Invocation} {request reply : Value}
    (hrequest : invocation.request = .ok request)
    (hfits : request.Fits server.limits server.limits.depth)
    (hreply : (network.history.deployment.server.process request).reply = reply)
    (hwritten : reply.encodeFault? = none)
    (hreplyFits : reply.Fits server.limits server.limits.depth) :
    (Client.call ⟨id, endpoint.limits, endpoint.stream, connection.sent.length⟩
      network.history.deployment request.wire).received = .value reply := by
  obtain ⟨hlinked, hagrees⟩ := hkept.linked id endpoint connection hendpoint hconnection
  have hholds := Value.written_holds (Invocation.encodeFault_of_request hrequest) hfits
  subst hreply
  have hlimits := hkept.answers.limits_eq
  generalize minutes.phase id = phase at hagrees
  cases hagrees with
  | asked hcalling => simp [hidle] at hcalling
  | answered hcalling => simp [hidle] at hcalling
  | idle _ _ hserver hclient _ =>
      obtain ⟨left, hreceived⟩ := Deployment.receive_request hkept.whole hconnection hlinked.isOpen
        hlinked.drains (hlimits ▸ hlinked.server_sound) hlinked.server_going hserver
        (hlimits ▸ hholds) hwritten
      have hfed : (endpoint.stream.feed
          (network.history.deployment.server.process request).reply.wire).octets =
            (network.history.deployment.server.process request).reply.wire := by
        rw [Stream.octets, Stream.feed, ← List.append_assoc]
        change endpoint.stream.octets ++ _ = _
        rw [hclient, List.nil_append]
      have hsound : (endpoint.stream.feed
          (network.history.deployment.server.process request).reply.wire).Sound server.limits :=
        hlinked.client_sound
      obtain ⟨last, hnext, -⟩ := hsound.next_value (Value.written_holds hwritten hreplyFits) hfed
      rw [← hlinked.limits_eq] at hnext
      have houtput : ∀ (sent : List Bytes) (octets : Bytes),
          ((octets :: sent).take ((octets :: sent).length - sent.length)).reverse.flatten =
            octets := by
        intro sent octets
        simp
      simp only [Client.call, Client.read, hreceived, Client.catchUp, hlinked.isOpen, if_true,
        Connection.outputAfter, houtput, hnext]

end Kept

end Network

end DurableStore
