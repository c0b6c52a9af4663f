import DurableStore.Bytes

/-!
# The open end of a log

The file of an open log is written through a buffer in memory.  A record waits there as long
as it finds room.  The buffer is written when a record finds no room, when the log is
flushed, and when the file is closed; a record that is larger than the buffer is written at
once.  It is at these moments that writing can fail, for instance because there is no space
left.  An attempt to write succeeds or fails as a whole: one that fails leaves no octets in
the file, and what was in the buffer stays there.

What the file has taken is shown by its volume from the next flush or closing on; nothing
reads the file in between.

Main definitions:

- `Handle.write`: one attempt to write to the file.
- `Handle.drain`: write what is in the buffer.
- `Handle.take`: take the octets of a record.
-/

namespace DurableStore

/-- The open end of a log. -/
structure Handle where
  /-- The octets that the file has taken since the last flush, the newest first. -/
  passed : List Bytes
  /-- The octets in the buffer, the newest first. -/
  pending : List Bytes
  /-- Of the coming attempts to write to the file, whether each of them fails; those beyond
  succeed. -/
  faults : List Bool
  deriving DecidableEq, Repr

namespace Handle

/-- A handle on which nothing has been done. -/
def fresh : Handle := ⟨[], [], []⟩

/-- The number of octets that a buffer holds, unless the file system suggests another. -/
def standardRoom : Nat := 8192

/-- The octets that the file has taken since the last flush. -/
def passedOctets (handle : Handle) : Bytes :=
  handle.passed.reverse.flatten

/-- The octets that have been taken since the last flush. -/
def pendingOctets (handle : Handle) : Bytes :=
  (handle.pending ++ handle.passed).reverse.flatten

/-- The number of octets in the buffer. -/
def load (handle : Handle) : Nat :=
  handle.pending.foldl (fun load octets => load + octets.length) 0

/-- Whether none of the coming attempts to write to the file fails. -/
def works (handle : Handle) : Bool :=
  !handle.faults.contains true

/-- Try to write pieces to the file, the newest of which stands first; the answer is whether
that succeeds. -/
def write (handle : Handle) (pieces : List Bytes) : Bool × Handle :=
  match handle.faults with
  | true :: faults => (false, { handle with faults })
  | faults => (true, { handle with passed := pieces ++ handle.passed, faults := faults.tail })

/-- Try to write what is in the buffer, if there is anything. -/
def drain (handle : Handle) : Bool × Handle :=
  if handle.pending.isEmpty then (true, handle)
  else
    let attempt := handle.write handle.pending
    if attempt.1 then (true, { attempt.2 with pending := [] }) else attempt

/-- Take the octets of a record, through a buffer with room for `room` octets; the answer is
whether they are taken. -/
def take (handle : Handle) (room : Nat) (octets : Bytes) : Bool × Handle :=
  if handle.load + octets.length ≤ room then
    (true, { handle with pending := octets :: handle.pending })
  else
    let drained := handle.drain
    if !drained.1 then drained
    else if octets.length ≤ room then (true, { drained.2 with pending := [octets] })
    else drained.2.write [octets]

end Handle

end DurableStore
