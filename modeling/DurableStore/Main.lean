import DurableStore.Program
import Std.Async.DNS
import Std.Async.Signal
import Std.Async.TCP
import Std.Async.Timer
import Std.Sync.Mutex

/-!
# The command line

The server as a program.  It lets a deployment act on what arrives over TCP, on
signals and on the passing of time, and carries the octets that the deployment
appends to its volume over to the file of the log.
-/

namespace DurableStore

namespace Program

open Std Async

/-- What the tasks of the program share.  The volume of the deployment holds the
octets that have not been carried over to the file yet. -/
structure Shared where
  deployment : Mutex Deployment
  file : IO.FS.Handle
  /-- The level below which notices are not written. -/
  level : Nat

/-- Write a notice, unless its severity is too low. -/
def report (level : Nat) (notice : Notice) : IO Unit := do
  if level ≤ notice.severity.level then
    let now ← Time.PlainDateTime.now
    IO.println <| now.format "uuuu-MM-dd HH:mm:ss,SSS" ++ " - redis-lite - " ++
      notice.severity.name ++ " - " ++ notice.message
    (← IO.getStdout).flush

/-- Let something happen to the deployment. -/
def Shared.act (shared : Shared) (change : Deployment → Outcome) : IO Outcome :=
  shared.deployment.atomically do
    let outcome := change (← get)
    outcome.notices.forM (m := IO) (report shared.level)
    let octets := (outcome.deployment.volume.content?).getD []
    unless octets.isEmpty do
      shared.file.write octets.toByteArray
      shared.file.flush
    let volume := { outcome.deployment.volume with place := .file [] }
    let deployment := { outcome.deployment with volume }
    set deployment
    return { outcome with deployment }

/-! ## The file of the log -/

/-- What stands at a path. -/
def placeAt (path : String) : IO Place := do
  try return .file (← IO.FS.readBinFile path).toList
  catch
    | .noFileOrDirectory .. => return .absent
    | _ => return .directory 0

/-- Open the file at a path for appending, with the directories on its way,
and cut off what stands behind its first `kept` octets. -/
def openFile (path : String) (kept : Nat) : IO IO.FS.Handle := do
  let names := path.splitOn "/"
  if 1 < names.length then
    IO.FS.createDirAll ("/".intercalate names.dropLast ++ "/")
  let file ← IO.FS.Handle.mk path .append
  let whole ← IO.FS.Handle.mk path .readWrite
  if 0 < kept then
    discard <| whole.read kept.toUSize
  whole.truncate
  return file

/-! ## Tasks -/

/-- Serve a connection until it ends. -/
def serveConnection (shared : Shared) (socket : TCP.Socket.Client) : Async Unit := do
  let peer ← try pure (toString (← socket.getPeerName)) catch _ => pure "?"
  let connected ← shared.act fun deployment => .quiet (deployment.connect peer) []
  let id := connected.deployment.connections.length - 1
  repeat
    let settled ←
      try
        match ← socket.recv? Settings.readSize.toUInt64 with
        | some octets => shared.act fun deployment => deployment.receive id octets.toList
        | none => shared.act fun deployment => deployment.hangUp id
      catch _ => shared.act fun deployment => deployment.step (.reset id)
    let some connection := settled.deployment.connections[id]? | break
    unless connection.output.isEmpty do
      try socket.send connection.output.toByteArray
      catch _ => discard <| shared.act fun deployment => deployment.step (.reset id)
    discard <| shared.act fun deployment => .quiet (deployment.alter id Connection.forget) []
    unless connection.isOpen do break
  try socket.shutdown catch _ => pure ()

/-- Accept connections for ever. -/
def accept (shared : Shared) (server : TCP.Socket.Server) : Async Unit := do
  repeat
    let socket ← server.accept
    background (serveConnection shared socket)

/-- Flush the log again and again. -/
def flush (shared : Shared) (interval : Binary64) : Async Unit := do
  let pause := (Float.ofBits interval.bits * 1000).toUInt64.toNat
  repeat
    sleep (.ofNat pause)
    discard <| shared.act Deployment.flush

/-- Wait for a signal. -/
def awaitSignal (signal : Signal) (name : String) : Async Ending := do
  let waiter ← Signal.Waiter.mk signal false
  discard <| Async.ofAsyncTask (← waiter.wait)
  return .signal name

/-! ## The program -/

/-- The address that a host name and a port stand for. -/
def addressOf (host : String) (port : Int) : Async Net.SocketAddress := do
  unless 0 ≤ port ∧ port < 65536 do
    throw (IO.userError s!"no such port: {port}")
  let number := port.toNat.toUInt16
  match ← DNS.getAddrInfo host (toString number) with
  | ⟨.v4 address :: _⟩ => return .v4 ⟨address, number⟩
  | ⟨.v6 address :: _⟩ => return .v6 ⟨address, number⟩
  | _ => throw (IO.userError ("no such host: " ++ host))

/-- Listen on a host and a port. -/
def listen (host : String) (port : Int) : Async TCP.Socket.Server := do
  let server ← TCP.Socket.Server.mk
  server.bind (← addressOf host port)
  server.listen 128
  return server

/-- Serve until something ends that. -/
def serveUntilEnd (shared : Shared) (options : Options) : Async Ending := do
  try
    let server ← listen options.host options.port
    discard <| shared.act Deployment.start
    background (accept shared server)
    background (flush shared options.flushInterval)
    Async.race (awaitSignal .sigterm "SIGTERM") (awaitSignal .sigint "SIGINT")
  catch error => return .cannotListen (toString error)

/-- Run the program with the given options. -/
def start (level : Nat) (options : Options) : IO UInt32 := do
  let place ← placeAt options.logPath
  let launched := launch options ⟨place, false⟩
  launched.notices.forM (report level)
  match launched.result with
  | .error error =>
      report level (.openingFailed error)
      return (Exit.withoutLog error).status.toUInt32
  | .ok server =>
      let file ← openFile options.logPath launched.volume.size
      (banner options server).forM (report level)
      let deployment := Deployment.ofServer server ⟨.file [], false⟩
      let shared : Shared := ⟨← Mutex.new deployment, file, level⟩
      let ending ← (serveUntilEnd shared options).block
      let outcome ← shared.act fun deployment => (serve deployment ending).andThen shutDown
      return (exitOf ending outcome.failure?).status.toUInt32

/-- The variables that the settings depend on. -/
def environment : IO Environment :=
  Settings.variableNames.filterMapM fun name => do
    return (← IO.getEnv name).map (name, ·)

/-- Run the program with the given command line. -/
def command (words : List String) : IO UInt32 := do
  match Settings.ofEnvironment (← environment) with
  | .error error =>
      IO.eprintln error.message
      return 1
  | .ok settings =>
      match Options.parse settings words with
      | .error dismissal =>
          unless dismissal.message.isEmpty do IO.eprintln ("error: " ++ dismissal.message)
          return dismissal.status.toUInt32
      | .ok options => start (LogLevel.inForce settings.logLevel options.debug) options

end Program

end DurableStore

/-- The server program. -/
def main (words : List String) : IO UInt32 :=
  DurableStore.Program.command words
