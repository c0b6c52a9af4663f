import DurableStore.Proofs.Server.Undisturbed
import DurableStore.Proofs.Wire.ReadBack

/-!
# Faults of connections

Clients stop sending, connections are lost, reading from them fails, replies cannot
be delivered any more, and the server is stopped, at any time and on any connection.
Each of these happens between two turns of a handler, so that a request has been
answered as a whole or not at all.  That a transport cannot be closed in order leaves
no trace, since its handler is done by then.

The log may be obstructed and closed meanwhile, as long as it does not become half closed.
By `History.intact_of_faultless` it never does unless an attempt to write to its file is to
fail.

Main results:

- Theorem `Keyspace.Plain.answerAll`: the replies to requests can be written.
- Theorem `Server.plain_launch`: a server that has been launched holds nothing but
  payloads.
- Structure `History.AllOrNothing` and theorem `History.run_allOrNothing`: requests are
  answered as a whole or not at all, and a fault on a connection concerns no other.
-/

namespace DurableStore

/-! ## Replies can be written -/

namespace Keyspace.Plain

variable {keyspace : Keyspace}

/-- A command stores nothing but payloads, however many arguments it has. -/
theorem keep (hplain : keyspace.Plain) (name : Bytes) (payloads : List Bytes) :
    (keyspace.dispatch name (payloads.map .bulk)).2.Plain := by
  unfold Keyspace.dispatch
  split
  · rename_i verb hverb
    cases verb with
    | ping => exact hplain
    | get => exact hplain
    | set => exact (hplain.store payloads).2
    | del =>
        simp only [Keyspace.run, Keyspace.remove]
        split
        · exact hplain
        · rw [Value.payloads_eq_some.mpr rfl]
          exact (hplain.deleteMany payloads).2
  · exact hplain

/-- So does a request, and its reply can be written unless it has more arguments than
64 bits can count. -/
theorem process {server : Server} (hplain : server.keyspace.Plain) (request : Value) :
    (server.process request).server.keyspace.Plain ∧
      (request.size < 2 ^ 63 → (server.process request).reply.encodeFault? = none) := by
  cases hparse : Command.parse request with
  | error error =>
      rw [Server.process_of_parse_error hparse]
      exact ⟨hplain, fun _ => Reply.encodeFault_invalidCommand error⟩
  | ok command =>
      obtain ⟨hreply, hkeyspace, -⟩ := Server.process_of_parse_ok hparse server
      obtain ⟨name, payloads, rfl, rfl⟩ := Command.parse_eq_ok.mp hparse
      rw [hreply, hkeyspace]
      refine ⟨hplain.keep name payloads, fun hsize => (hplain.dispatch name ?_).1⟩
      rw [Value.size, List.length_cons, List.length_map] at hsize
      omega

/-- So do requests one after the other. -/
theorem answerAll {server : Server} (hplain : server.keyspace.Plain)
    (requests : List (Nat × Value)) :
    ∀ exchange ∈ (server.answerAll requests).1, exchange.request.size < 2 ^ 63 →
      exchange.reply.encodeFault? = none := by
  induction requests generalizing server with
  | nil =>
      intro exchange hexchange
      cases hexchange
  | cons first requests ih =>
      obtain ⟨hnext, hwritten⟩ := hplain.process first.2
      intro exchange hexchange hsize
      rcases List.mem_cons.mp hexchange with rfl | hlater
      · exact hwritten hsize
      · exact ih hnext exchange hlater hsize

/-- So do the known commands among values. -/
theorem dispatchAll (hplain : keyspace.Plain) (values : List Value) :
    (keyspace.dispatchAll (Command.knownAmong values)).Plain := by
  induction values generalizing keyspace with
  | nil => exact hplain
  | cons value values ih =>
      rw [Command.knownAmong_cons, Keyspace.dispatchAll_append]
      refine ih ?_
      unfold Command.known?
      cases hparse : Command.parse value with
      | error error => exact hplain
      | ok command =>
          obtain ⟨name, payloads, rfl, rfl⟩ := Command.parse_eq_ok.mp hparse
          dsimp only
          split
          · exact hplain.keep name payloads
          · exact hplain

end Keyspace.Plain

/-- A server that has been launched holds nothing but payloads. -/
theorem Server.plain_launch {host : String} {port : Int} {limits : Limits} {log? : Option Log}
    {volume : Volume} {server : Server}
    (hlaunch : (Server.launch host port limits log? volume).result = .ok server) :
    server.keyspace.Plain := by
  cases log? with
  | none =>
      cases hlaunch
      exact .empty
  | some log =>
      simp only [launch] at hlaunch
      cases hopening : (log.opening volume .empty).result with
      | error error =>
          rw [hopening] at hlaunch
          cases hlaunch
      | ok opened =>
          rw [hopening] at hlaunch
          cases hlaunch
          obtain ⟨records, -, -, hkeyspace, -⟩ := Log.records_of_opening_ok hopening
          exact hkeyspace ▸ Keyspace.Plain.empty.dispatchAll _

/-! ## Runs with faults -/

namespace History

/-- The requests of a server are answered as a whole or not at all, whatever befalls its
connections.  The other run is one without faults in which the same requests are answered. -/
structure AllOrNothing (server : Server) (volume : Volume) (events : List Event)
    (history calm : History) : Prop where
  /-- The requests answered on a connection are the first of the complete values it has
  received. -/
  requests_prefix : ∀ id, (Exchange.on id history.exchanges).map Exchange.request <+:
    (decodeAll server.limits (history.received id)).values.map Prod.fst
  /-- A request at the beginning of the octets that wait on an open connection is
  answered in the next turn of the handler. -/
  next_answered : ∀ (id : Nat) (connection : Connection) (record : Record) (rest : Bytes),
    history.deployment.connections[id]? = some connection →
    connection.isOpen = true → record.Holds server.limits →
    connection.stream.octets = record.octets ++ rest →
    (history.step (.turn id)).exchanges = history.exchanges ++
      [⟨id, record.value, (history.deployment.server.process record.value).reply⟩]
  /-- The replies are those of a server that is asked these requests one after the
  other. -/
  exchanges_eq : history.exchanges = (server.answerAll history.requests).1
  /-- The keyspace is what these requests make of it. -/
  keyspace_eq : history.deployment.server.keyspace =
    (server.answerAll history.requests).2.keyspace
  /-- The log holds the recorded requests, behind what it held before. -/
  log_eq : ∀ log content, server.log? = some log → volume.place = .file content →
    ∃ current, history.deployment.server.log? = some current ∧
      current.written history.deployment.volume =
        log.written volume ++ history.recorded.flatMap Value.wire
  /-- A request is recorded if it is an accepted write, and the server has a log that takes
  it when it is answered. -/
  recorded_iff : ∀ before event after, events = before ++ event :: after →
    ∀ transaction ∈ ((start server volume).run before).deployment.answered event,
      transaction.isRecorded = true ↔ transaction.exchange.isAccepted = true ∧
        ((start server volume).run before).deployment.server.records
          transaction.exchange.request = true
  /-- An open log that can be written to takes every accepted write. -/
  records_accepted : ∀ before, before <+: events → ∀ log,
    ((start server volume).run before).deployment.server.log? = some log →
    log.accepts = true → ∀ exchange : Exchange, exchange.isAccepted = true →
    ((start server volume).run before).deployment.server.records exchange.request = true
  /-- What has been sent on a connection are the replies to its requests, and at most one
  last answer, with which it ends. -/
  sent_eq : ∀ (id : Nat) (connection : Connection),
    history.deployment.connections[id]? = some connection →
    ∃ reason?, connection.sent.reverse =
        Exchange.outputs (Exchange.on id history.exchanges) ++ lastOutput reason? ∧
      (connection.isOpen = true → reason? = none)
  /-- All replies can be written if nothing but payloads had been stored before. -/
  encode_eq : server.keyspace.Plain → ∀ exchange ∈ history.exchanges,
    exchange.request.size < 2 ^ 63 → exchange.reply.encode = .ok exchange.reply.wire
  /-- No request is answered on a connection that has ended, and nothing is sent on
  it. -/
  ended : ∀ before after (id : Nat) (connection : Connection), events = before ++ after →
    ((start server volume).run before).deployment.connections[id]? = some connection →
    connection.isOpen = false →
    history.Ended id connection.sent ∧
      Exchange.on id history.exchanges =
        Exchange.on id ((start server volume).run before).exchanges
  /-- All connections that were open when the server was stopped have ended then. -/
  stopped : ∀ before after (id : Nat) (connection : Connection),
    events = before ++ .stop :: after →
    ((start server volume).run before).deployment.connections[id]? = some connection →
    history.Ended id connection.sent ∧
      Exchange.on id history.exchanges =
        Exchange.on id ((start server volume).run before).exchanges
  /-- In the run without faults, clients connect, send octets, and are served. -/
  calm_events : ∀ event ∈ (start server volume).undisturbed events,
    (∃ peer, event = .connect peer) ∨ (∃ id octets, event = .deliver id octets) ∨
      ∃ id, event = .turn id
  /-- They send the requests that have been answered on their connections, and nothing
  else. -/
  calm_received : ∀ id,
    (decodeAll server.limits (calm.received id)).values.map Prod.fst =
      (Exchange.on id history.exchanges).map Exchange.request ∧
    (decodeAll server.limits (calm.received id)).stop = (calm.received id).length
  /-- The same requests are answered alike, in the same order. -/
  calm_exchanges : calm.exchanges = history.exchanges
  /-- The keyspace becomes the same. -/
  calm_keyspace : calm.deployment.server.keyspace = history.deployment.server.keyspace
  /-- The same is sent on every connection, but for a last answer. -/
  calm_sent : ∀ (id : Nat) (connection : Connection),
    history.deployment.connections[id]? = some connection →
    ∃ other : Connection, calm.deployment.connections[id]? = some other ∧
      ∃ reason?, connection.sent.reverse = other.sent.reverse ++ lastOutput reason?

/-- Whatever befalls the connections of a server and its log, requests are answered as a
whole or not at all, unless the log is half closed. -/
theorem run_allOrNothing {server : Server} {volume : Volume} {events : List Event}
    (hevents : ∀ event ∈ events, event ≠ .restart)
    (hintact : (start server volume).Intact events) :
    AllOrNothing server volume events ((start server volume).run events)
      ((start server volume).run ((start server volume).undisturbed events)) := by
  have hanswers : ((start server volume).run events).Answers server := .run hevents
  have haccounted : ((start server volume).run events).Accounted server.limits :=
    .run hevents hintact
  have hfollows : ((start server volume).run events).Follows server.limits
      ((start server volume).run ((start server volume).undisturbed events)) :=
    (Follows.start hintact.at_start volume).run (.start server volume) (.start _ server volume)
      hevents hintact
  have hon : ∀ id, (Transaction.on id ((start server volume).run events).transactions).map
      Transaction.exchange = Exchange.on id ((start server volume).run events).exchanges :=
    fun id => Transaction.map_exchange_on id _
  have hvalues : ∀ id, (Exchange.on id ((start server volume).run events).exchanges).map
      Exchange.request = ((Transaction.on id ((start server volume).run events).transactions).map
        Transaction.record).map Record.value := by
    intro id
    rw [← hon id, List.map_map, List.map_map]
    rfl
  constructor
  case exchanges_eq => exact hanswers.exchanges_eq
  case keyspace_eq => exact hanswers.keyspace_eq
  case calm_events => exact fun event hevent => mem_undisturbed hevent
  case calm_exchanges => exact hfollows.exchanges_eq
  case calm_keyspace => exact hfollows.keyspace_eq
  case calm_received =>
    intro id
    have hsplits := splits_joined (haccounted.received_eq id).1
    rw [hfollows.received_eq, hvalues id]
    exact ⟨hsplits.values_decodeAll, hsplits.stop_eq_length.mpr rfl⟩
  case calm_sent =>
    intro id connection hconnection
    obtain ⟨other, hother, hboth⟩ := hfollows.connections id connection hconnection
    obtain ⟨reason?, hsent, -⟩ := hboth.sent_eq
    exact ⟨other, hother, reason?, hsent⟩
  case requests_prefix =>
    intro id
    obtain ⟨hholds, rest, hreceived⟩ := haccounted.received_eq id
    obtain ⟨later, last, hmore⟩ := exists_splits server.limits rest
    rw [hreceived, (hmore.prepend hholds).values_decodeAll, List.map_append, hvalues id]
    exact List.prefix_append _ _
  case next_answered =>
    intro id connection record rest hconnection hopen hholds hoctets
    have hsound := (haccounted.connections id connection hconnection).sound
    rw [← hanswers.limits_eq] at hsound hholds
    obtain ⟨-, -, -, hanswered, -⟩ :=
      Deployment.answered_of_holds hintact.at_end hconnection hopen hsound hholds hoctets
    simp only [exchanges, step, hanswered, List.map_append, List.map_cons, List.map_nil]
  case log_eq =>
    intro log content hlog hplace
    obtain ⟨current, hcurrent, -, hwritten⟩ := (Logged.run hlog volume hevents hintact).log_eq
    exact ⟨current, hcurrent, hwritten content hplace⟩
  case recorded_iff =>
    intro before event after _ transaction htransaction
    have hrecordable := (Deployment.mem_answered htransaction).2.2.2
    rw [Transaction.isRecorded, Bool.and_eq_true, hrecordable]
  case records_accepted =>
    intro before _ log hlog haccepts exchange haccepted
    exact Server.records_of_accepts hlog haccepts (Exchange.encodeFault_of_isAccepted haccepted)
  case sent_eq =>
    intro id connection hconnection
    rw [← hon id]
    exact (haccounted.connections id connection hconnection).sent_eq
  case encode_eq =>
    intro hplain exchange hexchange hsize
    rw [hanswers.exchanges_eq] at hexchange
    rw [Value.encode, hplain.answerAll _ exchange hexchange hsize]
  case ended =>
    rintro before after id connection rfl hconnection hclosed
    exact Ended.of_run ⟨connection, hconnection, hclosed, rfl⟩ hevents hintact
  case stopped =>
    rintro before after id connection rfl hconnection
    exact Ended.of_stop hconnection hevents hintact

/-- Of four clients one is lost after its first request, with another behind it; replies do
not reach the second any more; reading from the third fails; the fourth stops inside a
request when the server is stopped. -/
theorem run_allOrNothing_faults :
    let log : Log := { Log.unopened "log.aof" .standard .one with handle? := some .fresh }
    let server := Server.create "localhost" 6379 .standard .empty (some log)
    let volume : Volume := ⟨.file [], false⟩
    let events : List Event :=
      [.start, .connect "one", .connect "two", .connect "three", .connect "four",
        .deliver 0 (Bytes.ofString "*3\r\n$3\r\nSET\r\n$1\r\nk\r\n$1\r\nv\r\n*1\r\n$4\r\nPING\r\n"),
        .turn 0, .reset 0, .turn 0, .breakDrain 1,
        .deliver 1 (Bytes.ofString "*2\r\n$3\r\nGET\r\n$1\r\nk\r\n*1\r\n$4\r\nPING\r\n"),
        .turn 1, .turn 1, .crash 2 "no route", .deliver 3 (Bytes.ofString "*1\r\n$4\r\nPI"),
        .finish 3, .stop, .turn 3]
    AllOrNothing server volume events ((start server volume).run events)
      ((start server volume).run ((start server volume).undisturbed events)) :=
  run_allOrNothing (by decide) (intact_of_faultless rfl rfl rfl (by simp))

end History

end DurableStore
