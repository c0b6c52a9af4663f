/-!
# The reader-writer lock

Any number of readers may hold the lock together, a writer holds it alone, and
a reader that asks while a writer waits has to wait behind it.  The lock is a
monitor: threads that are not admitted sleep, and are notified together when a
writer or the last reader leaves.  A notified thread runs again at some later
moment, looks at the lock anew, and either enters or goes back to sleep.

Main definitions:

- `Lock.ask`, `Lock.wake`, `Lock.leave`: the three atomic steps of a thread.
- `Lock.settle`: let every notified thread run.
-/

namespace DurableStore

/-- What a thread wants the lock for. -/
inductive Access
  | read
  | write
  deriving DecidableEq, Repr

/-- Where a thread stands with the lock. -/
inductive Phase
  /-- The thread sleeps; `notified` says that it has been told to look again. -/
  | asleep (notified : Bool)
  /-- The thread holds the lock. -/
  | holding
  deriving DecidableEq, Repr

/-- A thread that waits for the lock or holds it. -/
structure Visitor where
  name : String
  access : Access
  phase : Phase
  deriving DecidableEq, Repr

namespace Visitor

/-- Whether a thread holds the lock. -/
def holds (visitor : Visitor) : Bool :=
  visitor.phase == .holding

/-- Tell a thread to look again, if it sleeps. -/
def notify (visitor : Visitor) : Visitor :=
  match visitor.phase with
  | .asleep _ => { visitor with phase := .asleep true }
  | .holding => visitor

end Visitor

/-- The counters of the lock and the threads that are with it. -/
structure Lock where
  /-- The number of readers that hold the lock. -/
  readers : Nat
  /-- Whether a writer holds the lock. -/
  writer : Bool
  /-- The number of writers that wait. -/
  waitingWriters : Nat
  visitors : List Visitor
  deriving DecidableEq, Repr

namespace Lock

/-- The lock that nobody holds or wants. -/
def free : Lock := ⟨0, false, 0, []⟩

/-- Whether a thread may enter now. -/
def admits (lock : Lock) : Access → Bool
  | .read => !lock.writer && lock.waitingWriters == 0
  | .write => !lock.writer && lock.readers == 0

/-- The counters after a thread has entered. -/
def enter (lock : Lock) : Access → Lock
  | .read => { lock with readers := lock.readers + 1 }
  | .write => { lock with writer := true, waitingWriters := lock.waitingWriters - 1 }

/-- The counters after a thread has announced that it wants to enter. -/
def announce (lock : Lock) : Access → Lock
  | .read => lock
  | .write => { lock with waitingWriters := lock.waitingWriters + 1 }

/-- Notify every thread that sleeps. -/
def notifyAll (lock : Lock) : Lock :=
  { lock with visitors := lock.visitors.map Visitor.notify }

/-- A new thread asks for the lock: it enters, or falls asleep. -/
def ask (lock : Lock) (name : String) (access : Access) : Lock :=
  let announced := lock.announce access
  if announced.admits access then
    let entered := announced.enter access
    { entered with visitors := entered.visitors ++ [⟨name, access, .holding⟩] }
  else
    { announced with visitors := announced.visitors ++ [⟨name, access, .asleep false⟩] }

/-- Replace the visitor of a name. -/
def revise (lock : Lock) (name : String) (change : Visitor → Visitor) : Lock :=
  { lock with
    visitors := lock.visitors.map fun visitor =>
      if visitor.name = name then change visitor else visitor }

/-- The visitor of a name. -/
def find? (lock : Lock) (name : String) : Option Visitor :=
  lock.visitors.find? fun visitor => visitor.name == name

/-- A notified thread looks at the lock again: it enters, or falls asleep. -/
def wake (lock : Lock) (name : String) : Lock :=
  match lock.find? name with
  | some ⟨_, access, .asleep true⟩ =>
      if lock.admits access then
        (lock.enter access).revise name fun visitor => { visitor with phase := .holding }
      else lock.revise name fun visitor => { visitor with phase := .asleep false }
  | _ => lock

/-- A holder leaves; a writer, or the last reader, notifies all who sleep. -/
def leave (lock : Lock) (name : String) : Lock :=
  match lock.find? name with
  | some ⟨_, access, .holding⟩ =>
      let remaining := { lock with
        visitors := lock.visitors.filter fun visitor => visitor.name != name }
      match access with
      | .read =>
          let fewer := { remaining with readers := remaining.readers - 1 }
          if fewer.readers = 0 then fewer.notifyAll else fewer
      | .write => notifyAll { remaining with writer := false }
  | _ => lock

/-- Let every notified thread run, in the order in which they came. -/
def settle (lock : Lock) : Lock :=
  (lock.visitors.map Visitor.name).foldl wake lock

/-- The names of the threads that hold the lock. -/
def holders (lock : Lock) : List String :=
  (lock.visitors.filter Visitor.holds).map Visitor.name

/-- The names of the threads that wait for the lock. -/
def waiters (lock : Lock) : List String :=
  (lock.visitors.filter fun visitor => !visitor.holds).map Visitor.name

end Lock

end DurableStore
