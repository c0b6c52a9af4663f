import DurableStore.Log.Handle
import DurableStore.Log.Replay
import DurableStore.Log.Volume

/-!
# The append-only log

The log is the durable record of executed writes.  Opening it replays it and
cuts off an incomplete last record, so that new records start on a boundary.
Appended records wait until the next flush, which writes them and forces the
file to stable storage.  A closed log refuses records and never touches its file
again.

Closing empties the buffer twice if need be: the log flushes the file, and the
file flushes itself as it is closed.  If both fail, the file is closed without
the octets that waited, but the log does not notice that it is: it is half
closed.  It still counts as open, and from then on it is the file that refuses
to be written and to be flushed.  Closing the log once more closes it.

Main definitions:

- `Log.opening`: open, replay and trim the log at a path.
- `Log.append`, `Log.flush`, `Log.close`: the life of an open log.
- `Log.appendThenClose`: the whole life of an open log at once.
- `Log.tick`: one round of the background flusher.
-/

namespace DurableStore

/-- A log at a path. -/
structure Log where
  path : String
  limits : Limits
  /-- Seconds between flushes in the background. -/
  interval : Binary64
  /-- The number of octets for which there is room in the buffer of the open end, which the
  file system suggests. -/
  room : Nat
  /-- The open end, unless the file is closed. -/
  handle? : Option Handle
  /-- Whether the log counts as open although its file is closed. -/
  halfClosed : Bool
  /-- The number of commands that were replayed when the log was opened. -/
  replayed : Nat
  /-- The number of records appended since. -/
  appended : Nat
  deriving DecidableEq, Repr

/-- What opening a log leads to. -/
structure Opening where
  volume : Volume
  keyspace : Keyspace
  notices : List Notice
  result : Except LogError Log

/-- What an operation on a log and its volume leads to, `ε` being the ways in
which it can fail. -/
structure LogStep (ε : Type) where
  log : Log
  volume : Volume
  notices : List Notice
  result : Except ε Unit

/-- The figures that describe a log. -/
structure LogStats where
  path : String
  isOpen : Bool
  size : Nat
  replayed : Nat
  appended : Nat
  deriving DecidableEq, Repr

namespace Log

/-- A log that has not been opened. -/
def unopened (path : String) (limits : Limits) (interval : Binary64) : Log :=
  { path, limits, interval, room := Handle.standardRoom, handle? := none, halfClosed := false,
    replayed := 0, appended := 0 }

/-- Whether the file of a log is closed although the log counts as open. -/
def isHalfClosed (log : Log) : Bool :=
  log.handle?.isNone && log.halfClosed

/-- Whether a log counts as open. -/
def isOpen (log : Log) : Bool :=
  log.handle?.isSome || log.halfClosed

/-! ## Opening and replaying -/

/-- Replay the file of a log. -/
def replay (log : Log) (volume : Volume) (keyspace : Keyspace) : Replay :=
  match volume.read with
  | .error reason =>
      { Replay.start keyspace with failure? := some (.cannotRead log.path reason) }
  | .ok content => Replay.ofContent log.limits log.path content keyspace

/-- The notices about a successful replay of a file of `size` octets. -/
def openingNotices (path : String) (size : Nat) (replay : Replay) : List Notice :=
  replay.notices ++ .replayed path replay.count ::
    (if replay.offset < size then [.discarding path (size - replay.offset)] else [])

/-- Open a log: create its file if there is none, replay it, and drop an
incomplete last record. -/
def opening (log : Log) (volume : Volume) (keyspace : Keyspace) : Opening :=
  match volume.create with
  | .error reason => ⟨volume, keyspace, [], .error (.cannotOpen log.path reason)⟩
  | .ok volume =>
      let replay := log.replay volume keyspace
      match replay.failure? with
      | some error => ⟨volume, replay.keyspace, replay.notices, .error error⟩
      | none =>
          { volume := volume.truncate replay.offset
            keyspace := replay.keyspace
            notices := openingNotices log.path volume.size replay
            result := .ok
              { log with
                handle? := some .fresh
                halfClosed := false
                replayed := replay.count
                appended := 0 } }

/-! ## Appending -/

/-- The failure of an attempt to write to a log whose file is closed. -/
def refusal (log : Log) : LogError :=
  if log.halfClosed then .writeToShut else .closed log.path

/-- Append a value; the answer is the number of octets of its written form. -/
def append (log : Log) (value : Value) : Except AppendError Nat × Log :=
  match value.encode with
  | .error error => (.error (.unwritable error), log)
  | .ok octets =>
      match log.handle? with
      | none => (.error (.refused log.refusal), log)
      | some handle =>
          let taking := handle.take log.room octets
          if taking.1 then
            (.ok octets.length,
              { log with handle? := some taking.2, appended := log.appended + 1 })
          else
            (.error (.refused (.cannotAppend log.path Volume.systemError)),
              { log with handle? := some taking.2 })

/-- From now on attempts to write to the file of a log fail as told. -/
def obstruct (log : Log) (faults : List Bool) : Log :=
  { log with handle? := log.handle?.map fun handle => { handle with faults } }

/-! ## Flushing and closing -/

/-- Write what waits and force the file to stable storage.  A closed log has
nothing to flush. -/
def flush (log : Log) (volume : Volume) : LogStep LogError :=
  match log.handle? with
  | none => ⟨log, volume, [], if log.halfClosed then .error .flushOfShut else .ok ()⟩
  | some handle =>
      let drained := handle.drain
      { log := { log with handle? := some { drained.2 with passed := [] } }
        volume := volume.write drained.2.passedOctets
        notices := []
        result :=
          if drained.1 && !volume.syncFails then .ok ()
          else .error (.cannotFlush log.path Volume.systemError) }

/-- Write what waits, force the file to stable storage, and close it, whether or
not that succeeds.  A closed log stays as it is. -/
def close (log : Log) (volume : Volume) : LogStep LogError :=
  match log.handle? with
  | none =>
      { log := { log with halfClosed := false }
        volume
        notices := []
        result := if log.halfClosed then .error .flushOfShut else .ok () }
  | some handle =>
      let flushed := handle.drain
      -- The file tries once more as it is closed.
      let drained := flushed.2.drain
      { log := { log with handle? := none, halfClosed := !drained.1 }
        volume := volume.write drained.2.passedOctets
        notices := if flushed.1 && !volume.syncFails then [.closedLog log.path] else []
        result :=
          if !drained.1 then .error (.cannotClose Volume.systemError)
          else if flushed.1 && !volume.syncFails then .ok ()
          else .error (.cannotFlushOnClose log.path Volume.systemError) }

/-- Append values one after the other until one is not accepted. -/
def appendAll (log : Log) : List Value → Except AppendError Unit × Log
  | [] => (.ok (), log)
  | value :: rest =>
      match log.append value with
      | (.ok _, log) => log.appendAll rest
      | (.error error, log) => (.error error, log)

/-- Append values until one is not accepted, and close the log in any case.  A
failure to close takes the place of an earlier one. -/
def appendThenClose (log : Log) (volume : Volume) (values : List Value) :
    LogStep AppendError :=
  let (outcome, log) := log.appendAll values
  let closing := log.close volume
  { log := closing.log
    volume := closing.volume
    notices := closing.notices
    result :=
      match closing.result with
      | .error error => .error (.refused error)
      | .ok _ => outcome }

/-- One round of the background flusher: a failure of the log is reported and the
flusher carries on. -/
def tick (log : Log) (volume : Volume) : LogStep LogError :=
  let step := log.flush volume
  match step.result with
  | .ok _ => step
  | .error error =>
      if error.isOwn then { step with notices := [.flushFailed error], result := .ok () }
      else step

/-- Several rounds of the background flusher, which ends with one that fails. -/
def ticks (log : Log) (volume : Volume) : Nat → LogStep LogError
  | 0 => ⟨log, volume, [], .ok ()⟩
  | rounds + 1 =>
      let first := log.tick volume
      match first.result with
      | .error _ => first
      | .ok _ =>
          let later := first.log.ticks first.volume rounds
          { later with notices := first.notices ++ later.notices }

/-- The seconds for which the background flusher sleeps, if another interval
than its own may be prescribed. -/
def sleepTime (log : Log) (prescribed? : Option Binary64) : Binary64 :=
  prescribed?.getD log.interval

/-- The figures that describe a log. -/
def stats (log : Log) (volume : Volume) : LogStats :=
  ⟨log.path, log.isOpen, volume.size, log.replayed, log.appended⟩

end Log

end DurableStore
