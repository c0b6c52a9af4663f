import DurableStore.Log.Disk
import DurableStore.Options
import DurableStore.Server.Deployment

/-!
# The server program

The program reads its command line, launches a server from its log, serves until
something ends it, and closes the log.  Without a working log it does not start.

Main definitions:

- `Program.banner`: what is reported before the program serves.
- `Program.shutDown`: what happens after it has served.
- `Program.run`: the whole program.
-/

namespace DurableStore

/-- What ends the program once it is about to serve. -/
inductive Ending
  /-- It is sent a signal. -/
  | signal (name : String)
  /-- It is interrupted from the keyboard. -/
  | interrupt
  /-- It cannot listen. -/
  | cannotListen (reason : String)
  deriving DecidableEq, Inhabited, Repr

/-- How the program ends. -/
inductive Exit
  /-- The command line gave no options. -/
  | dismissed (dismissal : Dismissal)
  /-- The log could not be opened. -/
  | withoutLog (error : LogError)
  /-- It ended in order. -/
  | finished
  /-- It could not listen, or its log could not be closed. -/
  | failed (reason : String)
  deriving DecidableEq, Repr

namespace Exit

/-- The status that the program reports to its caller. -/
def status : Exit → Nat
  | .dismissed dismissal => dismissal.status
  | .withoutLog _ => 1
  | .finished => 0
  | .failed _ => 1

end Exit

/-- A run of the program. -/
structure ProgramRun where
  exit : Exit
  volume : Volume
  notices : List Notice
  deriving DecidableEq

namespace Program

/-- What is reported before the program serves. -/
def banner (options : Options) (server : Server) : List Notice :=
  [.starting, .host options.host, .port options.port,
    .log options.logPath ((server.log?.map Log.replayed).getD 0),
    .flushInterval options.flushInterval]

/-- The log that the options name. -/
def logOf (options : Options) : Log :=
  Log.unopened (Path.normalize options.logPath) .standard options.flushInterval

/-- Launch the server that the options describe. -/
def launch (options : Options) (volume : Volume) : Launch :=
  Server.launch options.host options.port .standard (some (logOf options)) volume

/-- Listen until something ends that. -/
def serve (deployment : Deployment) : Ending → Outcome
  | .signal name => deployment.start.andThen fun deployment => .quiet deployment [.signalled name]
  | .interrupt => deployment.start.andThen fun deployment => .quiet deployment [.interrupted]
  | .cannotListen reason => .quiet deployment [.cannotListen reason]

/-- Stop the server and close its log. -/
def shutDown (deployment : Deployment) : Outcome :=
  let released := deployment.stop.andThen Deployment.releaseLog
  match released.failure? with
  | none => released.andThen fun deployment => .quiet deployment [.shutDown]
  | some _ => released

/-- How the program ends once it has served, if `failure?` is what failed on the way. -/
def exitOf (ending : Ending) (failure? : Option LogError) : Exit :=
  match failure?, ending with
  | some error, _ => .failed error.message
  | none, .cannotListen reason => .failed reason
  | none, .signal _ | none, .interrupt => .finished

/-- Run the program with the given command line until it ends. -/
def run (settings : Settings) (words : List String) (volume : Volume) (ending : Ending) :
    ProgramRun :=
  match Options.parse settings words with
  | .error dismissal => ⟨.dismissed dismissal, volume, []⟩
  | .ok options =>
      let launched := launch options volume
      match launched.result with
      | .error error =>
          ⟨.withoutLog error, launched.volume, launched.notices ++ [.openingFailed error]⟩
      | .ok server =>
          let outcome := (serve (.ofServer server launched.volume) ending).andThen shutDown
          ⟨exitOf ending outcome.failure?, outcome.deployment.volume,
            launched.notices ++ banner options server ++ outcome.notices⟩

end Program

end DurableStore
