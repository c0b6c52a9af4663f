import DurableStore.Engine
import DurableStore.Notice
import DurableStore.Wire.Receiver

/-!
# Replaying the log

The log is a plain concatenation of written requests.  Replay reads it piece by
piece and runs every request whose command is known against a keyspace.  Other
values are skipped.  An incomplete record at the end is what an interrupted
write leaves behind, and ends the replay; but if a complete request begins
behind a line terminator inside it, the record is not the last one, its length
must be damaged, and cutting it off would lose what follows.  Then, as after a
record that does not decode at all, replay fails.

Main definitions:

- `Replay.step`: one record.
- `Replay.follower?`: a complete request inside an incomplete record.
- `Replay.ofChunks`: the replay of a file that is read in the given pieces.
- `Replay.ofContent`: the replay of a file that is read in pieces of 64 KiB.
-/

namespace DurableStore

/-- The state of a replay. -/
structure Replay where
  keyspace : Keyspace
  /-- The offset behind the last record. -/
  offset : Nat
  /-- The number of commands that were run. -/
  count : Nat
  /-- What was reported, the newest first. -/
  reports : List Notice
  /-- Why the replay failed, if it did. -/
  failure? : Option LogError
  deriving DecidableEq

namespace Replay

/-- The size of the pieces in which the log is read. -/
def chunkSize : Nat := 64 * 1024

/-- A replay at the start of the log. -/
def start (keyspace : Keyspace) : Replay := ⟨keyspace, 0, 0, [], none⟩

/-- What was reported, in order. -/
def notices (replay : Replay) : List Notice := replay.reports.reverse

/-- Run one record, which is a value written in `record.2` octets. -/
def step (replay : Replay) (record : Value × Nat) : Replay :=
  match Command.parse record.1 with
  | .error error =>
      { replay with
        offset := replay.offset + record.2
        reports := .skippedRecord replay.offset error :: replay.reports }
  | .ok command =>
      match command.verb? with
      | none =>
          { replay with
            offset := replay.offset + record.2
            reports := .skippedCommand command.name replay.offset :: replay.reports }
      | some verb =>
          { replay with
            keyspace := (replay.keyspace.run verb command.args).2
            offset := replay.offset + record.2
            count := replay.count + 1 }

/-- Whether octets, at the given offset, begin with a complete request. -/
def beginsWithRequest (limits : Limits) (cursor : Cursor) : Bool :=
  match readValue limits limits.depth cursor with
  | .error _ => false
  | .ok (value, _) =>
      match Command.parse value with
      | .error _ => false
      | .ok _ => true

/-- The first position at which a complete request begins behind a line
terminator, in octets the first of which has the given position. -/
def followerFrom? (limits : Limits) : Nat → Bytes → Option Nat
  | _, [] => none
  | position, octet :: rest =>
      match octet :: rest with
      | 0x0D :: 0x0A :: 0x2A :: more =>
          if beginsWithRequest limits ⟨position + 2, 0x2A :: more⟩ then some (position + 2)
          else followerFrom? limits (position + 1) rest
      | _ => followerFrom? limits (position + 1) rest

/-- The first position inside an incomplete record at which a complete request
begins behind a line terminator. -/
def follower? (limits : Limits) (tail : Bytes) : Option Nat :=
  followerFrom? limits 0 tail

/-- Judge the octets that are left when the file has been read. -/
def judgeTail (limits : Limits) (path : String) (tail : Bytes) (replay : Replay) : Replay :=
  if tail.isEmpty then replay
  else match follower? limits tail with
    | some position =>
        { replay with
          failure? := some (.overrun path replay.offset (replay.offset + position)) }
    | none =>
        { replay with reports := .truncatedRecord path replay.offset :: replay.reports }

/-- The replay fails at the current record. -/
def fail (path : String) (error : DecodeError) (replay : Replay) : Replay :=
  { replay with failure? := some (.corrupt path replay.offset error) }

/-- Replay the rest of a file that comes in the given pieces. -/
def run (limits : Limits) (path : String) : List Bytes → Receiver → Replay → Replay
  | [], receiver, replay =>
      let drained := receiver.rearm.drain limits
      let replay := drained.values.foldl step replay
      match drained.error? with
      | some error => replay.fail path error
      | none => replay.judgeTail limits path drained.receiver.buffer
  | piece :: pieces, receiver, replay =>
      let drained := (receiver.push piece).drain limits
      let replay := drained.values.foldl step replay
      match drained.error? with
      | some error => replay.fail path error
      | none => run limits path pieces drained.receiver replay

/-- Replay a file that comes in the given pieces. -/
def ofChunks (limits : Limits) (path : String) (pieces : List Bytes) (keyspace : Keyspace) :
    Replay :=
  run limits path pieces .empty (start keyspace)

/-- Replay a file of the given content. -/
def ofContent (limits : Limits) (path : String) (content : Bytes) (keyspace : Keyspace) :
    Replay :=
  ofChunks limits path (Bytes.chunks chunkSize content) keyspace

end Replay

end DurableStore
