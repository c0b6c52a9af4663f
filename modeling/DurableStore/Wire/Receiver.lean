import DurableStore.Wire.Decode

/-!
# Receiving values in pieces

Octets arrive in pieces that bear no relation to where values end.  A receiver
keeps the octets that are not yet part of a value and a threshold: the least
length at which another decoding attempt could succeed.  A long bulk string
that arrives in many pieces is thus decoded once and not once a piece.

Main definitions:

- `Receiver.push`: another piece has arrived.
- `Receiver.attempt`: decode the front of the buffer, if it is long enough.
- `Receiver.next`: the next value, taking as many pieces as that needs.
- `Receiver.drain`: all values that are complete.
-/

namespace DurableStore

/-- Octets that await decoding. -/
structure Receiver where
  /-- The octets that are not yet part of a value. -/
  buffer : Bytes
  /-- The length the buffer must reach before decoding is attempted again. -/
  threshold : Nat
  /-- The number of attempts so far. -/
  attempts : Nat
  deriving DecidableEq, Repr

/-- The outcome of one attempt to decode the front of a buffer. -/
inductive Attempt
  /-- More octets are needed. -/
  | short
  /-- A value, written in `size` octets. -/
  | value (value : Value) (size : Nat)
  /-- No continuation of the buffer begins with a value. -/
  | malformed (error : DecodeError)
  deriving DecidableEq, Repr

namespace Receiver

/-- A receiver that has seen nothing. -/
def empty : Receiver := ⟨[], 1, 0⟩

/-- Another piece has arrived. -/
def push (receiver : Receiver) (piece : Bytes) : Receiver :=
  { receiver with buffer := receiver.buffer ++ piece }

/-- Allow an attempt regardless of the last one. -/
def rearm (receiver : Receiver) : Receiver :=
  { receiver with threshold := 1 }

/-- Decode the front of the buffer, if the threshold is reached.  A value
leaves the buffer, and the threshold starts again; too short a buffer raises
the threshold; a malformed one changes nothing. -/
def attempt (limits : Limits) (receiver : Receiver) : Attempt × Receiver :=
  if Bytes.hasLength receiver.threshold receiver.buffer then
    match readValue limits limits.depth ⟨0, receiver.buffer⟩ with
    | .ok (value, next) =>
        (.value value next.offset, ⟨next.rest, 1, receiver.attempts + 1⟩)
    | .error error =>
        match error.needed? with
        | some needed =>
            (.short, { receiver with
              threshold := max needed (receiver.buffer.length + 1)
              attempts := receiver.attempts + 1 })
        | none => (.malformed error, { receiver with attempts := receiver.attempts + 1 })
  else (.short, receiver)

/-- Receive the next value, taking pieces one by one as long as more octets are
needed.  The pieces that were not needed are returned. -/
def next (limits : Limits) (receiver : Receiver) :
    List Bytes → Attempt × Receiver × List Bytes
  | [] =>
      match receiver.attempt limits with
      | (outcome, receiver) => (outcome, receiver, [])
  | piece :: pieces =>
      match receiver.attempt limits with
      | (.short, receiver) => (receiver.push piece).next limits pieces
      | (outcome, receiver) => (outcome, receiver, piece :: pieces)

/-- What the complete values at the front of a buffer amount to. -/
structure Drained where
  /-- The values, each with the number of octets it was written in. -/
  values : List (Value × Nat)
  /-- The receiver that is left. -/
  receiver : Receiver
  /-- Why what is left in the buffer is not the beginning of a value. -/
  error? : Option DecodeError
  deriving DecidableEq, Repr

/-- Take at most `fuel` values off the buffer; those taken before, newest
first, are `done`. -/
def drainWithin (limits : Limits) : Nat → List (Value × Nat) → Receiver → Drained
  | 0, done, receiver => ⟨done.reverse, receiver, none⟩
  | fuel + 1, done, receiver =>
      match receiver.attempt limits with
      | (.short, receiver) => ⟨done.reverse, receiver, none⟩
      | (.malformed error, receiver) => ⟨done.reverse, receiver, some error⟩
      | (.value value size, receiver) =>
          drainWithin limits fuel ((value, size) :: done) receiver

/-- Take all complete values off the buffer.  Every value has at least one
octet, so no more values than octets can follow. -/
def drain (limits : Limits) (receiver : Receiver) : Drained :=
  drainWithin limits (receiver.buffer.length + 1) [] receiver

end Receiver

/-- The result of asking a stream of octets for its next value. -/
inductive Received
  /-- The next value. -/
  | value (value : Value)
  /-- The stream has ended behind a value. -/
  | ended
  /-- More octets are needed. -/
  | waiting
  /-- The stream does not continue with a value. -/
  | malformed (error : DecodeError)
  /-- The stream has ended inside a value, after `pending` octets of it. -/
  | cutOff (pending : Nat)
  deriving DecidableEq, Repr

namespace Received

/-- The wording of the failure to receive a value from a stream that ended
inside one. -/
def cutOffMessage (pending : Nat) : String :=
  s!"stream ended with {pending} undecoded bytes"

end Received

/-- A receiver together with the octets that wait to be read. -/
structure Stream where
  receiver : Receiver
  /-- The octets that have arrived but have not been read. -/
  queued : Bytes
  /-- Whether nothing more will arrive. -/
  closed : Bool
  deriving DecidableEq, Repr

namespace Stream

/-- A stream on which nothing has arrived. -/
def empty : Stream := ⟨.empty, [], false⟩

/-- Octets arrive. -/
def feed (stream : Stream) (bytes : Bytes) : Stream :=
  { stream with queued := stream.queued ++ bytes }

/-- Nothing more will arrive. -/
def close (stream : Stream) : Stream :=
  { stream with closed := true }

/-- Read on until the next value is complete, at most `readSize` octets at a
time. -/
def read (limits : Limits) (readSize : Nat) (stream : Stream) : Received × Stream :=
  match stream.receiver.next limits (Bytes.chunks readSize stream.queued) with
  | (.value value _, receiver, pieces) =>
      (.value value, { stream with receiver, queued := pieces.flatten })
  | (.malformed error, receiver, pieces) =>
      (.malformed error, { stream with receiver, queued := pieces.flatten })
  | (.short, receiver, _) =>
      let stream := { stream with receiver, queued := [] }
      if !stream.closed then (.waiting, stream)
      else if receiver.buffer.isEmpty then (.ended, stream)
      else (.cutOff receiver.buffer.length, stream)

/-- Ask for the next value.  Nothing is read as long as what has been read
before suffices. -/
def next (limits : Limits) (readSize : Nat) (stream : Stream) : Received × Stream :=
  match stream.receiver.attempt limits with
  | (.value value _, receiver) => (.value value, { stream with receiver })
  | (.malformed error, receiver) => (.malformed error, { stream with receiver })
  | (.short, receiver) => { stream with receiver }.read limits readSize

/-- The number of octets that have arrived and are not yet part of a value. -/
def size (stream : Stream) : Nat :=
  stream.receiver.buffer.length + stream.queued.length

end Stream

end DurableStore
