import DurableStore.Proofs.Engine
import DurableStore.Proofs.Log.Lifecycle
import DurableStore.Server.Connection

/-!
# Failures that a server does not foresee

A server counts and reports a write that its log refuses, and answers it all the same.  It
does so for every failure that the log reports as its own.  The only other failure that a
request can meet is that of a log that is half closed; then the accepted write is neither
counted nor answered, and its connection ends.  Whether the log is half closed does not
change while requests are answered.

Main results:

- Theorem `Server.failure_process` and `Server.logIsHalfClosed_process`: unless the log is
  half closed every request is answered, and it does not become so.
- Theorem `Server.process_halfClosed`: what becomes of an accepted write otherwise.
- Theorem `Connection.respond_process`: a server whose log is not half closed sends its
  replies.
-/

namespace DurableStore

/-- Whether the log of a server is half closed. -/
def Server.logIsHalfClosed (server : Server) : Bool :=
  server.log?.any Log.isHalfClosed

/-- What has a written form is refused by the log itself, unless the log is half closed. -/
theorem Log.isOwn_append {log : Log} (hwhole : log.isHalfClosed = false) {value : Value}
    (hwritten : value.encodeFault? = none) {error : AppendError}
    (herror : (log.append value).1 = .error error) : error.isOwn = true := by
  have happends := log.appends value
  generalize log.append value = outcome at herror happends
  cases happends with
  | unwritable hfault => exact absurd hwritten hfault
  | shut _ hhandle =>
      have hclosed : log.halfClosed = false := by simpa [isHalfClosed, hhandle] using hwhole
      cases herror
      simp [AppendError.isOwn, refusal, hclosed, LogError.isOwn]
  | failed _ _ _ _ _ =>
      cases herror
      rfl
  | taken _ _ _ _ => cases herror

namespace Server

variable {server : Server}

/-- Writing to the log does not close it. -/
theorem logIsHalfClosed_record (server : Server) (request reply : Value) :
    (server.record request reply).server.logIsHalfClosed = server.logIsHalfClosed := by
  cases hlog : server.log? with
  | none => simp [record, logIsHalfClosed, hlog]
  | some log =>
      have hsame := log.isHalfClosed_append request
      rcases happend : log.append request with ⟨result, next⟩
      rw [happend] at hsame
      cases result with
      | ok count => simpa [record, logIsHalfClosed, hlog, happend] using hsame
      | error error =>
          simp only [record, logIsHalfClosed, hlog, happend]
          split <;> simpa using hsame

/-- Nor does answering a request. -/
theorem logIsHalfClosed_process (server : Server) (request : Value) :
    (server.process request).server.logIsHalfClosed = server.logIsHalfClosed := by
  unfold process
  split
  · rfl
  · rw [perform]
    split
    · exact logIsHalfClosed_record _ _ _
    · rfl

/-- Nor does a turn of a handler. -/
theorem logIsHalfClosed_turn (server : Server) (connection : Connection) :
    (server.turn connection).server.logIsHalfClosed = server.logIsHalfClosed := by
  unfold turn
  split
  · rfl
  · split
    · exact server.logIsHalfClosed_process _
    all_goals rfl

/-- A server whose log is not half closed answers every request. -/
theorem failure_process (hwhole : server.logIsHalfClosed = false) (request : Value) :
    (server.process request).failure? = none := by
  unfold process
  split
  · rfl
  · rename_i command hparse
    have hwritten := Command.encodeFault_of_parse hparse
    rw [perform]
    split
    · unfold record
      simp only
      cases hlog : server.log? with
      | none => rfl
      | some log =>
          rw [logIsHalfClosed, hlog, Option.any_some] at hwhole
          simp only
          split
          · rfl
          · rename_i error next happend
            rw [if_pos (Log.isOwn_append hwhole hwritten (by rw [happend]))]
    · rfl

/-- A server whose log is half closed carries out a write that is accepted, but neither does it
count that the log has not taken it, nor does it answer. -/
theorem process_halfClosed (hhalf : server.logIsHalfClosed = true) {request : Value}
    {command : Command} (hparse : Command.parse request = .ok command)
    (hlogged : isLogged command.name
      (server.keyspace.dispatch command.name command.args).1 = true) :
    (server.process request).failure? = some (.refused .writeToShut) ∧
      (server.process request).server =
        { server with
          keyspace := (server.keyspace.dispatch command.name command.args).2
          commandCount := server.commandCount + 1 } := by
  obtain ⟨log, hlog, hshut⟩ := Option.any_eq_true _ _ |>.mp hhalf
  obtain ⟨hhandle, hclosed⟩ : log.handle? = none ∧ log.halfClosed = true := by
    simpa [Log.isHalfClosed] using hshut
  have happend : log.append request = (.error (.refused .writeToShut), log) := by
    rw [Log.append, Value.encode, Command.encodeFault_of_parse hparse]
    simp only [hhandle, Log.refusal, hclosed, if_true]
  simp only [process, hparse, perform, if_pos hlogged, record, hlog, happend]
  exact ⟨rfl, by rw [← hlog]; rfl⟩

end Server

/-- A server whose log is not half closed sends the replies to requests. -/
theorem Connection.respond_process {server : Server} (hwhole : server.logIsHalfClosed = false)
    (connection : Connection) (request : Value) :
    connection.respond (server.process request) =
      connection.reply (server.process request).reply := by
  rw [respond, Server.failure_process hwhole]

end DurableStore
