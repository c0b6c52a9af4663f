import DurableStore.Proofs.Engine
import DurableStore.Proofs.Log.Lifecycle
import DurableStore.Server.Deployment

/-!
# Durability

As long as writing to the log does not fail, the octets that have been written
to it determine the keyspace: they are whole records, and running the known
commands among these from the empty keyspace gives the live one.  Every event
preserves this, so that it holds at every point of every run, and a restart
rebuilds the keyspace it found.

Main results:

- Definition `Durable`: the invariant.
- Theorem `Durable.turn`: answering a request preserves it.
- Theorem `Durable.restart`: a restart preserves it, and rebuilds the keyspace.
- Theorem `Durable.step` and `Durable.run`: every event and every run do.
- Theorem `Course.run_recoverable`: at every point of a run, the log determines
  the keyspace.
-/

namespace DurableStore

/-! ## Accepted writes -/

/-- The number of accepted writes that a turn has answered. -/
def Activity.accepted : Activity → Nat
  | .served request reply =>
      match Command.parse request with
      | .ok command => if Server.isLogged command.name reply then 1 else 0
      | .error _ => 0
  | .idle | .ended => 0

namespace Server

/-- Answering a request changes keyspace and log only if it is an accepted
write, which is run and recorded. -/
theorem process_cases (server : Server) (request : Value) :
    (server.process request).server.limits = server.limits ∧
    (((server.process request).server.keyspace = server.keyspace ∧
        (server.process request).server.log? = server.log? ∧
        (Activity.served request (server.process request).reply).accepted = 0) ∨
      ∃ command served, Command.parse request = .ok command ∧ command.verb?.isSome = true ∧
        served = { server with
          keyspace := (server.keyspace.dispatch command.name command.args).2
          commandCount := server.commandCount + 1 } ∧
        (server.process request).server =
          (Server.record served request (server.process request).reply).server ∧
        (Activity.served request (server.process request).reply).accepted = 1) := by
  cases hparse : Command.parse request with
  | error error =>
      simp only [process, hparse, Activity.accepted]
      exact ⟨trivial, .inl ⟨trivial, trivial, trivial⟩⟩
  | ok command =>
      by_cases hlogged : isLogged command.name
          (server.keyspace.dispatch command.name command.args).1 = true
      · simp only [process, hparse, perform, Activity.accepted, if_pos hlogged]
        obtain ⟨-, hlimits, hreply⟩ := record_frame
          { server with
            keyspace := (server.keyspace.dispatch command.name command.args).2
            commandCount := server.commandCount + 1 }
          request (server.keyspace.dispatch command.name command.args).1
        rw [hreply, if_pos hlogged]
        exact ⟨hlimits, .inr ⟨command, _, rfl, verb_of_isLogged hlogged, rfl, rfl, rfl⟩⟩
      · simp only [process, hparse, perform, Activity.accepted, if_neg hlogged]
        refine ⟨trivial, .inl ⟨?_, trivial, trivial⟩⟩
        exact Keyspace.dispatch_unchanged (by simpa using hlogged)

/-- A turn answers a request that keeps within the limits, or changes nothing
but its connection. -/
theorem turn_cases (server : Server) (connection : Connection) :
    ((server.turn connection).server = server ∧ (server.turn connection).activity.accepted = 0) ∨
      ∃ request, request.Fits server.limits server.limits.depth ∧
        (server.turn connection).server = (server.process request).server ∧
        (server.turn connection).activity = .served request (server.process request).reply := by
  unfold turn
  split
  · exact .inl ⟨rfl, rfl⟩
  · split
    · rename_i request stream hnext
      exact .inr ⟨request, Stream.next_fits hnext, rfl, rfl⟩
    all_goals exact .inl ⟨rfl, rfl⟩

end Server

/-! ## Octets written to the log -/

/-- What is known about the log of a deployment as long as writing to it does
not fail. -/
structure Ledger (path : String) (limits : Limits) (deployment : Deployment) (accepted : Nat) where
  log : Log
  handle : Handle
  content : Bytes
  records : List Record
  log_eq : deployment.server.log? = some log
  path_eq : log.path = path
  limits_eq : log.limits = limits
  /-- The server accepts no requests that the log could not read. -/
  server_le : deployment.server.limits ≤ limits
  handle_eq : log.handle? = some handle
  works : handle.works = true
  place_eq : deployment.volume.place = .file content
  /-- The octets written to the log are whole records. -/
  splits : Splits limits (content ++ handle.pendingOctets) records []
  /-- Running their known commands gives the live keyspace. -/
  keyspace_eq : deployment.server.keyspace =
    Keyspace.empty.dispatchAll (Command.knownAmong (records.map Record.value))
  /-- There are as many of these as were replayed when the log was opened, and
  the accepted writes since then. -/
  count_eq : (Command.knownAmong (records.map Record.value)).length = log.replayed + accepted

/-- The octets of a ledger are those written to the log. -/
theorem Ledger.written_eq {path : String} {limits : Limits} {deployment : Deployment}
    {accepted : Nat} (ledger : Ledger path limits deployment accepted) :
    ledger.log.written deployment.volume = ledger.content ++ ledger.handle.pendingOctets := by
  rw [Log.written_of_place ledger.place_eq, Log.pendingOctets, ledger.handle_eq]
  rfl

/-- The octets written to the log of a deployment determine its keyspace. -/
def Durable (path : String) (limits : Limits) (deployment : Deployment) (accepted : Nat) : Prop :=
  Nonempty (Ledger path limits deployment accepted)

namespace Durable

variable {path : String} {limits : Limits} {deployment : Deployment} {accepted : Nat}

/-- An event that leaves keyspace, log and file as they are preserves the
invariant. -/
theorem of_frame (hdurable : Durable path limits deployment accepted) {next : Deployment}
    (hlog : next.server.log? = deployment.server.log?)
    (hkeyspace : next.server.keyspace = deployment.server.keyspace)
    (hlimits : next.server.limits = deployment.server.limits)
    (hplace : next.volume.place = deployment.volume.place) : Durable path limits next accepted := by
  rcases hdurable with ⟨ledger⟩
  exact ⟨{
    log := ledger.log
    handle := ledger.handle
    content := ledger.content
    records := ledger.records
    log_eq := hlog.trans ledger.log_eq
    path_eq := ledger.path_eq
    limits_eq := ledger.limits_eq
    server_le := by rw [hlimits]; exact ledger.server_le
    handle_eq := ledger.handle_eq
    works := ledger.works
    place_eq := hplace.trans ledger.place_eq
    splits := ledger.splits
    keyspace_eq := hkeyspace.trans ledger.keyspace_eq
    count_eq := ledger.count_eq }⟩

/-- Answering a request preserves the invariant, and counts an accepted write. -/
theorem process (hdurable : Durable path limits deployment accepted) {request : Value}
    (hfits : request.Fits deployment.server.limits deployment.server.limits.depth)
    (connections : List Connection) :
    Durable path limits
      ⟨(deployment.server.process request).server, deployment.volume, connections⟩
      (accepted +
        (Activity.served request (deployment.server.process request).reply).accepted) := by
  obtain ⟨hlimits, ⟨hkeyspace, hlog, haccepted⟩ |
    ⟨command, served, hparse, hverb, hserved, hserver, haccepted⟩⟩ :=
      deployment.server.process_cases request
  · rw [haccepted]
    exact hdurable.of_frame hlog hkeyspace hlimits rfl
  · rcases hdurable with ⟨ledger⟩
    have hwritten := Command.encodeFault_of_parse hparse
    have hholds : request.written.Holds limits :=
      Value.written_holds hwritten (hfits.mono ledger.server_le ledger.server_le.2.2.2)
    have hknown : Command.knownAmong ((ledger.records ++ [request.written]).map Record.value) =
        Command.knownAmong (ledger.records.map Record.value) ++ [command] := by
      rw [List.map_append, Command.knownAmong_append]
      simp [Command.knownAmong, Command.known?, Value.written, hparse, hverb]
    obtain ⟨later, happend, hworks, hpieces⟩ :=
      Log.append_ok ledger.handle_eq ledger.works hwritten
    have hrecord : (Server.record served request (deployment.server.process request).reply).server =
        { served with log? := some { ledger.log with
            handle? := some later
            appended := ledger.log.appended + 1 } } := by
      rw [Server.record, hserved, ledger.log_eq]
      simp only [happend]
    have hpending : later.pendingOctets = ledger.handle.pendingOctets ++ request.wire := by
      rw [← Handle.flatten_pieces, hpieces, List.flatten_append, List.flatten_singleton,
        Handle.flatten_pieces]
    rw [haccepted, hserver, hrecord]
    exact ⟨{
      log := _
      handle := later
      content := ledger.content
      records := ledger.records ++ [request.written]
      log_eq := rfl
      path_eq := ledger.path_eq
      limits_eq := ledger.limits_eq
      server_le := by rw [hserved]; exact ledger.server_le
      handle_eq := rfl
      works := hworks
      place_eq := ledger.place_eq
      splits := by
        rw [hpending, ← List.append_assoc]
        refine ledger.splits.extend ?_
        simpa [Value.written] using (splits_nil limits).cons hholds
      keyspace_eq := by
        rw [hserved, hknown, Keyspace.dispatchAll_append, ← ledger.keyspace_eq]
        rfl
      count_eq := by
        rw [hknown, List.length_append, ledger.count_eq]
        rfl }⟩

/-- A turn preserves the invariant, and counts an accepted write. -/
theorem turn (hdurable : Durable path limits deployment accepted) {connection : Connection}
    (connections : List Connection) :
    Durable path limits
      ⟨(deployment.server.turn connection).server, deployment.volume, connections⟩
      (accepted + (deployment.server.turn connection).activity.accepted) := by
  rcases deployment.server.turn_cases connection with ⟨hserver, haccepted⟩ |
    ⟨request, hfits, hserver, hactivity⟩
  · rw [hserver, haccepted]
    exact hdurable.of_frame rfl rfl rfl rfl
  · rw [hserver, hactivity]
    exact hdurable.process hfits connections

/-- A flush moves the octets that wait into the file. -/
theorem flush (hdurable : Durable path limits deployment accepted) :
    Durable path limits deployment.flush.deployment accepted := by
  rcases hdurable with ⟨ledger⟩
  have hdone := Handle.drain_works ledger.works
  obtain ⟨hlog, hvolume, -⟩ := ledger.log.tick_spec deployment.volume
  rw [Log.flush_open ledger.handle_eq] at hlog hvolume
  simp only [Handle.passedOctets_drain hdone, Volume.write, ledger.place_eq] at hvolume
  simp only [Deployment.flush, Deployment.actOnLog, ledger.log_eq]
  exact ⟨{
    log := _
    handle := { ledger.handle.drain.2 with passed := [] }
    content := ledger.content ++ ledger.handle.pendingOctets
    records := ledger.records
    log_eq := rfl
    path_eq := by rw [hlog]; exact ledger.path_eq
    limits_eq := by rw [hlog]; exact ledger.limits_eq
    server_le := ledger.server_le
    handle_eq := by rw [hlog]
    works := Handle.works_of_suffix ledger.works ledger.handle.faults_drain
    place_eq := by rw [hvolume]
    splits := by
      simpa [Handle.pendingOctets, Handle.pending_drain hdone] using ledger.splits
    keyspace_eq := ledger.keyspace_eq
    count_eq := by rw [hlog]; exact ledger.count_eq }⟩

end Durable

/-! ## Restarts -/

namespace Deployment

variable {deployment : Deployment} {log : Log} {content : Bytes}

/-- Closing the log moves the octets that wait into the file, even if that is
reported as a failure, unless attempts to write fail. -/
theorem releaseLog_spec {handle : Handle} (hlog : deployment.server.log? = some log)
    (hhandle : log.handle? = some handle) (hworks : handle.works = true)
    (hplace : deployment.volume.place = .file content) :
    deployment.releaseLog.failure? = none ∧
      deployment.releaseLog.deployment.server =
        { deployment.server with log? := some { log with handle? := none, halfClosed := false } } ∧
      deployment.releaseLog.deployment.volume.place = .file (content ++ handle.pendingOctets) := by
  have hdone := Handle.drain_works hworks
  have hagain := Handle.drain_works (Handle.works_of_suffix hworks handle.faults_drain)
  have hpassed : handle.drain.2.drain.2.passedOctets = handle.pendingOctets := by
    rw [Handle.passedOctets_drain hagain, ← Handle.flatten_pieces, Handle.pieces_drain,
      Handle.flatten_pieces]
  unfold releaseLog closeLog actOnLog
  simp only [hlog, Log.close_open hhandle, hdone, hagain, hpassed, Volume.write, hplace]
  cases deployment.volume.syncFails <;> exact ⟨rfl, rfl, rfl⟩

/-- Launching a server from a log of whole records runs their known commands. -/
theorem relaunch_spec {records : List Record} (hlog : deployment.server.log? = some log)
    (hplace : deployment.volume.place = .file content)
    (hsplits : Splits log.limits content records []) :
    deployment.relaunch.failure? = none ∧
      deployment.relaunch.deployment.server =
        .create deployment.server.host deployment.server.port deployment.server.limits
          (Keyspace.empty.dispatchAll (Command.knownAmong (records.map Record.value)))
          (some { log with
            handle? := some .fresh
            halfClosed := false
            replayed := (Command.knownAmong (records.map Record.value)).length
            appended := 0 }) ∧
      deployment.relaunch.deployment.volume.place = .file (Record.joined records) := by
  have hcreate : deployment.volume.create = .ok deployment.volume := by
    rw [Volume.create, hplace]
  have hfailure : (Replay.conclude log.limits log.path []
      ((Replay.start .empty).steps records)).failure? = none := by
    rcases (Replay.start .empty).steps_spec records with ⟨-, -, -, hsteps⟩
    rw [Replay.conclude_nil, hsteps]
    rfl
  rcases Log.opening_ok hcreate hplace hsplits hfailure with ⟨hresult, hvolume⟩
  have hkeyspace : (log.opening deployment.volume .empty).keyspace = _ :=
    Log.opening_keyspace hcreate hplace hsplits
  simp only [relaunch, Server.launch, hlog, hresult, hkeyspace, Except.map, Outcome.quiet, hvolume]
  exact ⟨trivial, trivial, trivial⟩

end Deployment

namespace Durable

variable {path : String} {limits : Limits} {deployment : Deployment} {accepted : Nat}

/-- A restart succeeds, rebuilds the keyspace it found, and has replayed what
had been replayed before and the writes that were accepted since. -/
theorem restart (ledger : Ledger path limits deployment accepted) :
    deployment.restart.failure? = none ∧
      deployment.restart.deployment.server.keyspace = deployment.server.keyspace ∧
      ∃ next : Ledger path limits deployment.restart.deployment 0,
        next.log.replayed = ledger.log.replayed + accepted := by
  have hstopped : deployment.stop.deployment.server.log? = some ledger.log := ledger.log_eq
  obtain ⟨hquiet, hclosed, hfile⟩ :=
    Deployment.releaseLog_spec hstopped ledger.handle_eq ledger.works ledger.place_eq
  have hlog : deployment.stop.deployment.releaseLog.deployment.server.log? =
      some { ledger.log with handle? := none, halfClosed := false } := by
    rw [hclosed]
  have hsplits : Splits ledger.log.limits (ledger.content ++ ledger.handle.pendingOctets)
      ledger.records [] := by
    rw [ledger.limits_eq]
    exact ledger.splits
  rcases Deployment.relaunch_spec hlog hfile hsplits with ⟨hsuccess, hserver, hplace⟩
  refine ⟨?_, ?_, ?_⟩
  · change ((none : Option LogError).or
      deployment.stop.deployment.releaseLog.failure?).or
        deployment.stop.deployment.releaseLog.deployment.relaunch.failure? = none
    rw [hquiet, hsuccess]
    rfl
  · change deployment.stop.deployment.releaseLog.deployment.relaunch.deployment.server.keyspace = _
    rw [hserver, ledger.keyspace_eq]
    rfl
  · refine ⟨{
      log := _
      handle := .fresh
      content := Record.joined ledger.records
      records := ledger.records
      log_eq := congrArg Server.log? hserver
      path_eq := ledger.path_eq
      limits_eq := ledger.limits_eq
      server_le := ?_
      handle_eq := rfl
      works := rfl
      place_eq := hplace
      splits := ?_
      keyspace_eq := congrArg Server.keyspace hserver
      count_eq := rfl }, ledger.count_eq⟩
    · have hsame : deployment.restart.deployment.server.limits = deployment.server.limits :=
        (congrArg Server.limits hserver).trans (by rw [hclosed]; rfl)
      rw [hsame]
      exact ledger.server_le
    · simpa [Handle.pendingOctets, Handle.fresh] using splits_joined ledger.splits.holds

end Durable

/-! ## Runs -/

/-- Whether an event is one of a run in which writing to the log never fails
and the log is closed by restarts only. -/
def Event.isRoutine : Event → Bool
  | .closeLog => false
  | .obstruct faults => !faults.contains true
  | _ => true

/-- The number of accepted writes that the handler of a connection answers in
its next turn. -/
def Deployment.acceptedBy (deployment : Deployment) (id : Nat) : Nat :=
  match deployment.connections[id]? with
  | none => 0
  | some connection => (deployment.server.turn connection).activity.accepted

/-- A deployment in the course of a run. -/
structure Course where
  deployment : Deployment
  /-- The number of accepted writes since the log was opened. -/
  accepted : Nat

namespace Course

/-- What an event leads to, and how many writes have been accepted then. -/
def step (course : Course) (event : Event) : Course where
  deployment := (course.deployment.step event).deployment
  accepted :=
    match event with
    | .restart => 0
    | .turn id => course.accepted + course.deployment.acceptedBy id
    | _ => course.accepted

/-- What events lead to, one after the other. -/
def run (course : Course) (events : List Event) : Course :=
  events.foldl step course

/-- The beginning of the run of a server that has been launched. -/
def start (server : Server) (volume : Volume) : Course :=
  ⟨.ofServer server volume, 0⟩

end Course

namespace Durable

variable {path : String} {limits : Limits} {course : Course}

/-- Writing goes on not to fail. -/
theorem obstruct (hdurable : Durable path limits course.deployment course.accepted)
    {faults : List Bool} (hnone : faults.contains true = false) :
    Durable path limits (course.deployment.obstruct faults) course.accepted := by
  rcases hdurable with ⟨ledger⟩
  have hlog : ledger.log.obstruct faults =
      { ledger.log with handle? := some { ledger.handle with faults } } := by
    rw [Log.obstruct, ledger.handle_eq, Option.map_some]
  simp only [Deployment.obstruct, ledger.log_eq, Option.map_some, hlog]
  exact ⟨{
    log := _
    handle := { ledger.handle with faults }
    content := ledger.content
    records := ledger.records
    log_eq := rfl
    path_eq := ledger.path_eq
    limits_eq := ledger.limits_eq
    server_le := ledger.server_le
    handle_eq := rfl
    works := by rw [Handle.works, hnone, Bool.not_false]
    place_eq := ledger.place_eq
    splits := ledger.splits
    keyspace_eq := ledger.keyspace_eq
    count_eq := ledger.count_eq }⟩

/-- Every event of a routine run preserves the invariant. -/
theorem step (hdurable : Durable path limits course.deployment course.accepted) {event : Event}
    (hroutine : event.isRoutine = true) :
    Durable path limits (course.step event).deployment (course.step event).accepted := by
  cases event with
  | start =>
      refine hdurable.of_frame ?_ ?_ ?_ ?_ <;>
        simp only [Course.step, Deployment.step, Deployment.start] <;> split <;> rfl
  | stop => exact hdurable.of_frame rfl rfl rfl rfl
  | connect peer => exact hdurable.of_frame rfl rfl rfl rfl
  | deliver id octets => exact hdurable.of_frame rfl rfl rfl rfl
  | finish id => exact hdurable.of_frame rfl rfl rfl rfl
  | turn id =>
      simp only [Course.step, Deployment.step, Deployment.turn, Deployment.acceptedBy]
      cases course.deployment.connections[id]? with
      | none => exact hdurable
      | some connection => exact hdurable.turn _
  | reset id => exact hdurable.of_frame rfl rfl rfl rfl
  | crash id reason =>
      refine hdurable.of_frame ?_ ?_ ?_ ?_ <;>
        simp only [Course.step, Deployment.step, Deployment.crash] <;> split <;> rfl
  | breakDrain id => exact hdurable.of_frame rfl rfl rfl rfl
  | flush => exact hdurable.flush
  | closeLog => cases hroutine
  | restart =>
      rcases hdurable with ⟨ledger⟩
      rcases restart ledger with ⟨-, -, next, -⟩
      exact ⟨next⟩
  | obstruct faults => exact hdurable.obstruct (by simpa [Event.isRoutine] using hroutine)
  | setSyncFails fails => exact hdurable.of_frame rfl rfl rfl rfl

/-- Every routine run preserves the invariant. -/
theorem run (hdurable : Durable path limits course.deployment course.accepted)
    {events : List Event} (hroutine : ∀ event ∈ events, event.isRoutine = true) :
    Durable path limits (course.run events).deployment (course.run events).accepted := by
  induction events generalizing course with
  | nil => exact hdurable
  | cons event events ih =>
      have hnext := hdurable.step (hroutine event List.mem_cons_self)
      exact ih hnext fun other hother => hroutine other (List.mem_cons_of_mem _ hother)

/-- A server that has been launched from its log is durable, unless it accepts
requests that the log could not read. -/
theorem launch {host : String} {port : Int} {limits : Limits} {log : Log} {volume : Volume}
    {server : Server}
    (hlaunch : (Server.launch host port limits (some log) volume).result = .ok server)
    (hlimits : limits ≤ log.limits) :
    Durable log.path log.limits
      (.ofServer server (Server.launch host port limits (some log) volume).volume) 0 := by
  simp only [Server.launch] at hlaunch ⊢
  cases hopening : (log.opening volume .empty).result with
  | error error =>
      rw [hopening] at hlaunch
      cases hlaunch
  | ok opened =>
      rw [hopening] at hlaunch
      cases hlaunch
      rcases Log.records_of_opening_ok hopening with ⟨records, hholds, hplace, hkeyspace, rfl⟩
      exact ⟨{
        log := _
        handle := .fresh
        content := Record.joined records
        records := records
        log_eq := rfl
        path_eq := rfl
        limits_eq := rfl
        server_le := hlimits
        handle_eq := rfl
        works := rfl
        place_eq := hplace
        splits := by simpa [Handle.pendingOctets, Handle.fresh] using splits_joined hholds
        keyspace_eq := hkeyspace
        count_eq := rfl }⟩

end Durable

/-! ## Replaying the log -/

/-- The log determines the keyspace at a point of a run. -/
structure Course.Recoverable (log : Log) (course : Course) : Prop where
  /-- Replaying all octets written to the log succeeds, and gives the live
  keyspace. -/
  replay_eq : ∃ current, course.deployment.server.log? = some current ∧
    (Replay.ofContent log.limits log.path (current.written course.deployment.volume)
      .empty).failure? = none ∧
    (Replay.ofContent log.limits log.path (current.written course.deployment.volume)
      .empty).keyspace = course.deployment.server.keyspace
  /-- A restart succeeds, and rebuilds the live keyspace. -/
  restart_eq : course.deployment.restart.failure? = none ∧
    course.deployment.restart.deployment.server.keyspace = course.deployment.server.keyspace
  /-- It replays what was replayed when the log was opened, and the writes that
  have been accepted since. -/
  count_eq : ∃ current reopened, course.deployment.server.log? = some current ∧
    course.deployment.restart.deployment.server.log? = some reopened ∧
    reopened.replayed = current.replayed + course.accepted

/-- At every point of a run in which writing to the log does not fail, the log
determines the keyspace. -/
theorem Course.run_recoverable {host : String} {port : Int} {limits : Limits} {log : Log}
    {volume : Volume} {server : Server}
    (hlaunch : (Server.launch host port limits (some log) volume).result = .ok server)
    (hlimits : limits ≤ log.limits) {events : List Event}
    (hroutine : ∀ event ∈ events, event.isRoutine = true) :
    Recoverable log
      ((start server (Server.launch host port limits (some log) volume).volume).run events) := by
  have hstart : Durable log.path log.limits
      (start server (Server.launch host port limits (some log) volume).volume).deployment 0 :=
    Durable.launch hlaunch hlimits
  rcases hstart.run hroutine with ⟨ledger⟩
  rcases Replay.ofContent_whole ledger.splits log.path .empty with ⟨hfailure, hkeyspace, -⟩
  rcases Durable.restart ledger with ⟨hsuccess, hrebuilt, next, hcount⟩
  refine ⟨⟨ledger.log, ledger.log_eq, ?_⟩, ⟨hsuccess, hrebuilt⟩,
    ledger.log, next.log, ledger.log_eq, next.log_eq, hcount⟩
  have hwritten := ledger.written_eq
  simp only [Course.start] at hwritten ⊢
  rw [hwritten]
  exact ⟨hfailure, hkeyspace.trans ledger.keyspace_eq.symm⟩

/-- A run in which a client sets a key, the log is flushed, and the server is
restarted twice. -/
theorem Course.run_recoverable_set :
    ∃ server, (Server.launch "localhost" 6379 .standard
        (some (.unopened "log.aof" .standard .one)) ⟨.absent, false⟩).result = .ok server ∧
      Recoverable (.unopened "log.aof" .standard .one)
        ((start server (Server.launch "localhost" 6379 .standard
            (some (.unopened "log.aof" .standard .one)) ⟨.absent, false⟩).volume).run
          [.start, .connect "client",
            .deliver 0 (Bytes.ofString "*3\r\n$3\r\nSET\r\n$1\r\nk\r\n$1\r\nv\r\n"),
            .turn 0, .restart, .flush, .restart]) :=
  ⟨_, rfl, run_recoverable rfl ⟨Nat.le_refl _, Nat.le_refl _, Nat.le_refl _, Nat.le_refl _⟩
    (by decide)⟩

end DurableStore
