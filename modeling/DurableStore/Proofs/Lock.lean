import DurableStore.Lock

/-!
# The lock is a monitor

Threads ask for the lock, sleep, are notified, look again, enter and leave, in any
order.  Whatever the order, the counters of the lock are right, a writer is alone, and
no thread that has not been notified sleeps without a reason: a reader sleeps because a
writer is there, and a writer because some thread holds the lock.  A thread that leaves
because its work has failed releases the lock like any other.

A thread that asks looks at the lock at once, as one that has been notified does, so
that there are three kinds of step to look at: a thread joins the others, looks at the
lock, or leaves.

Visitors are told apart by their names.  A thread that asked again while it holds the
lock would be one more visitor, under a name of its own.

Main results:

- Definitions `Lock.step` and `Lock.run`: what can happen to the lock.
- Structure `Lock.Consistent`: the invariant.
- Theorems `Lock.Consistent.step` and `Lock.Consistent.run`: every step and every run
  preserve it.
- Theorem `Lock.still_settle`: once every notified thread has looked, nothing moves.
- Theorem `Lock.run_monitor`: the lock is a monitor in every state of every run.
-/

namespace DurableStore

/-! ## What happens to the lock -/

/-- What a thread does with the lock. -/
inductive LockEvent
  /-- A thread that is not with the lock asks for it. -/
  | ask (name : String) (access : Access)
  /-- A thread that has been notified looks at the lock again. -/
  | wake (name : String)
  /-- A thread that holds the lock leaves, its work being done or having failed. -/
  | leave (name : String)
  deriving DecidableEq, Repr

namespace Lock

/-- A thread does something; a thread that is with the lock already cannot ask. -/
def step (lock : Lock) : LockEvent → Lock
  | .ask name access => if (lock.find? name).isSome then lock else lock.ask name access
  | .wake name => lock.wake name
  | .leave name => lock.leave name

/-- Threads do something, one after the other. -/
def run (lock : Lock) (events : List LockEvent) : Lock :=
  events.foldl step lock

/-- Nothing moves: no thread that sleeps has been notified. -/
def Still (lock : Lock) : Prop :=
  ∀ visitor ∈ lock.visitors, visitor.phase ≠ .asleep true

/-- Whether a thread wants the lock for this, and holds it or waits for it. -/
def isAt (access : Access) (holds : Bool) (visitor : Visitor) : Bool :=
  visitor.access == access && visitor.holds == holds

/-- The number of threads that want the lock for this, and hold it or wait for it. -/
def count (access : Access) (holds : Bool) (visitors : List Visitor) : Nat :=
  visitors.countP (isAt access holds)

/-! ## Visitors -/

section Visitors

variable {lock : Lock} {name : String} {visitor : Visitor} {access : Access} {holds : Bool}

@[simp] theorem notify_name (visitor : Visitor) : visitor.notify.name = visitor.name := by
  unfold Visitor.notify
  split <;> rfl

@[simp] theorem isAt_asleep (name : String) (wanted : Access) (notified : Bool) :
    isAt access holds ⟨name, wanted, .asleep notified⟩ = (wanted == access && !holds) := by
  cases notified <;> cases holds <;> rfl

@[simp] theorem isAt_holding (name : String) (wanted : Access) :
    isAt access holds ⟨name, wanted, .holding⟩ = (wanted == access && holds) := by
  cases holds <;> rfl

/-- A notification changes neither what a thread wants nor whether it holds the lock. -/
@[simp] theorem isAt_notify (visitor : Visitor) :
    isAt access holds visitor.notify = isAt access holds visitor := by
  unfold isAt Visitor.notify Visitor.holds
  cases hphase : visitor.phase with
  | asleep notified => cases notified <;> rfl
  | holding => simp [hphase]

/-- A thread that has been told to look again has been notified, if it sleeps. -/
theorem notify_phase_ne (visitor : Visitor) : visitor.notify.phase ≠ .asleep false := by
  unfold Visitor.notify
  cases hphase : visitor.phase <;> simp [hphase]

@[simp] theorem count_nil : count access holds [] = 0 :=
  rfl

@[simp] theorem count_cons (visitor : Visitor) (visitors : List Visitor) :
    count access holds (visitor :: visitors) =
      count access holds visitors + if isAt access holds visitor then 1 else 0 :=
  List.countP_cons

@[simp] theorem count_append (visitors later : List Visitor) :
    count access holds (visitors ++ later) =
      count access holds visitors + count access holds later :=
  List.countP_append

@[simp] theorem count_map_notify (visitors : List Visitor) :
    count access holds (visitors.map Visitor.notify) = count access holds visitors := by
  simp only [count, List.countP_map]
  congr
  funext visitor
  exact isAt_notify visitor

/-- A thread that is counted is there. -/
theorem count_pos {visitors : List Visitor} :
    0 < count access holds visitors ↔
      ∃ visitor ∈ visitors, visitor.access = access ∧ visitor.holds = holds := by
  simp [count, isAt, List.countP_pos_iff]

/-- The visitor of a name stands between others that have other names. -/
theorem split_of_find (hnames : (lock.visitors.map Visitor.name).Nodup)
    (hfind : lock.find? name = some visitor) :
    visitor.name = name ∧ ∃ before after, lock.visitors = before ++ visitor :: after ∧
      ∀ other ∈ before ++ after, other.name ≠ name := by
  obtain ⟨hname, before, after, hvisitors, hbefore⟩ := List.find?_eq_some_iff_append.mp hfind
  have hsame : visitor.name = name := by simpa using hname
  refine ⟨hsame, before, after, hvisitors, ?_⟩
  intro other hother
  rcases List.mem_append.mp hother with hfirst | hlast
  · simpa using hbefore other hfirst
  · rw [hvisitors] at hnames
    simp only [List.map_append, List.map_cons] at hnames
    have hnotAfter := (List.nodup_cons.mp (List.nodup_append.mp hnames).2.1).1
    intro hother'
    apply hnotAfter
    rw [hsame, ← hother']
    exact List.mem_map_of_mem hlast

/-- Nobody of a name is there. -/
theorem find_eq_none : lock.find? name = none ↔ ∀ other ∈ lock.visitors, other.name ≠ name := by
  simp [find?]

/-- Replacing the visitor of a name that nobody has changes nothing. -/
theorem map_change_eq {visitors : List Visitor} (hothers : ∀ other ∈ visitors, other.name ≠ name)
    (change : Visitor → Visitor) :
    visitors.map (fun other => if other.name = name then change other else other) = visitors := by
  refine (List.map_congr_left fun other hother => ?_).trans (List.map_id visitors)
  rw [if_neg (hothers other hother)]
  rfl

/-- Replacing the visitor of a name leaves the others as they are. -/
theorem revise_split {before after : List Visitor} {change : Visitor → Visitor}
    (hvisitors : lock.visitors = before ++ visitor :: after) (hname : visitor.name = name)
    (hothers : ∀ other ∈ before ++ after, other.name ≠ name) :
    lock.revise name change = { lock with visitors := before ++ change visitor :: after } := by
  obtain ⟨hbefore, hafter⟩ := List.forall_mem_append.mp hothers
  simp only [revise, hvisitors, List.map_append, List.map_cons, map_change_eq hbefore,
    map_change_eq hafter, if_pos hname]

/-- A visitor among others is that one or one of the others. -/
theorem mem_split {before after : List Visitor} {other : Visitor} :
    visitor ∈ before ++ other :: after ↔ visitor = other ∨ visitor ∈ before ++ after :=
  List.perm_middle.mem_iff.trans List.mem_cons

/-- Removing the visitor of a name leaves the others as they are. -/
theorem filter_split {before after : List Visitor}
    (hvisitors : lock.visitors = before ++ visitor :: after) (hname : visitor.name = name)
    (hothers : ∀ other ∈ before ++ after, other.name ≠ name) :
    (lock.visitors.filter fun other => other.name != name) = before ++ after := by
  obtain ⟨hbefore, hafter⟩ := List.forall_mem_append.mp hothers
  have hkeep : ∀ visitors : List Visitor, (∀ other ∈ visitors, other.name ≠ name) →
      (visitors.filter fun other => other.name != name) = visitors := by
    intro visitors hvisitors'
    exact List.filter_eq_self.mpr fun other hother => by simpa using hvisitors' other hother
  rw [hvisitors, List.filter_append, List.filter_cons_of_neg (by simp [hname]), hkeep before hbefore,
    hkeep after hafter]

end Visitors

/-! ## The invariant -/

/-- A reader is admitted if no writer is there. -/
theorem admits_read {lock : Lock} :
    lock.admits .read = true ↔ lock.writer = false ∧ lock.waitingWriters = 0 := by
  simp [admits]

/-- A writer is admitted if no thread holds the lock. -/
theorem admits_write {lock : Lock} :
    lock.admits .write = true ↔ lock.writer = false ∧ lock.readers = 0 := by
  simp [admits]

/-- Whoever is not admitted is not admitted either when another thread has entered. -/
theorem admits_enter {lock : Lock} {access other : Access}
    (hrefused : lock.admits other = false) : (lock.enter access).admits other = false := by
  cases access <;> cases other <;> simp_all [admits, enter]

/-- Nor is it admitted when another thread has announced itself. -/
theorem admits_announce {lock : Lock} {access other : Access}
    (hrefused : lock.admits other = false) : (lock.announce access).admits other = false := by
  cases access <;> cases other <;> simp_all [admits, announce]

/-- Every thread is there once, the counters are right, and a writer is alone. -/
structure Counted (lock : Lock) : Prop where
  names : (lock.visitors.map Visitor.name).Nodup
  readers_eq : lock.readers = count .read true lock.visitors
  writer_eq : lock.writer.toNat = count .write true lock.visitors
  waiting_eq : lock.waitingWriters = count .write false lock.visitors
  exclusive : lock.writer = true → lock.readers = 0

/-- The counters are right, and no wakeup is lost: a thread that sleeps without having been
notified would not be admitted. -/
structure Consistent (lock : Lock) : Prop extends Counted lock where
  refused : ∀ visitor ∈ lock.visitors, visitor.phase = .asleep false →
    lock.admits visitor.access = false

/-- Once all threads have been notified, no wakeup is lost. -/
theorem Counted.notifyAll {lock : Lock} (hcounted : lock.Counted) :
    lock.notifyAll.Consistent := by
  obtain ⟨hnames, hreaders, hwriter, hwaiting, hexclusive⟩ := hcounted
  refine ⟨⟨?_, ?_, ?_, ?_, hexclusive⟩, ?_⟩
  · have hsame : Visitor.name ∘ Visitor.notify = Visitor.name := funext notify_name
    simpa [Lock.notifyAll, hsame] using hnames
  · simpa [Lock.notifyAll] using hreaders
  · simpa [Lock.notifyAll] using hwriter
  · simpa [Lock.notifyAll] using hwaiting
  · intro visitor hvisitor hphase
    obtain ⟨other, -, rfl⟩ := List.mem_map.mp hvisitor
    exact absurd hphase (notify_phase_ne other)

/-- A thread that has just been notified joins the visitors. -/
def join (lock : Lock) (name : String) (access : Access) : Lock :=
  { lock.announce access with visitors := lock.visitors ++ [⟨name, access, .asleep true⟩] }

/-- A thread that asks joins the visitors and looks at the lock. -/
theorem ask_eq_wake {lock : Lock} {name : String} (hnew : lock.find? name = none)
    (access : Access) : lock.ask name access = (lock.join name access).wake name := by
  have hkeep := map_change_eq (find_eq_none.mp hnew)
  have hfind : (lock.join name access).find? name = some ⟨name, access, .asleep true⟩ := by
    have hnone : (lock.visitors.find? fun other => other.name == name) = none := hnew
    simp [join, find?, List.find?_append, hnone]
  unfold wake ask
  rw [hfind]
  cases access with
  | read =>
      by_cases hadmits : lock.admits .read = true
      · simp_all [join, announce, admits, enter, revise]
      · simp_all [join, announce, admits, enter, revise]
  | write =>
      by_cases hadmits : lock.admits .write = true
      · simp_all [join, announce, admits, enter, revise]
      · simp_all [join, announce, admits, enter, revise]

namespace Consistent

variable {lock : Lock} {name : String} {access : Access} {before after : List Visitor}

/-- The lock that nobody holds or wants is consistent. -/
theorem free : Lock.free.Consistent := by
  refine ⟨⟨?_, ?_, ?_, ?_, ?_⟩, ?_⟩ <;> simp [Lock.free]

/-- A thread that joins the others is counted if it wants to write. -/
theorem join (hconsistent : lock.Consistent) (hnew : lock.find? name = none) (access : Access) :
    (lock.join name access).Consistent := by
  obtain ⟨⟨hnames, hreaders, hwriter, hwaiting, hexclusive⟩, hrefused⟩ := hconsistent
  refine ⟨⟨?_, ?_, ?_, ?_, ?_⟩, ?_⟩
  · simp only [Lock.join, List.map_append, List.map_cons, List.map_nil, List.nodup_append]
    refine ⟨hnames, by simp, ?_⟩
    intro first hfirst second hsecond
    obtain ⟨other, hother, rfl⟩ := List.mem_map.mp hfirst
    rw [List.mem_singleton.mp hsecond]
    exact find_eq_none.mp hnew other hother
  · cases access <;> simp [Lock.join, announce, hreaders]
  · cases access <;> simp [Lock.join, announce, hwriter]
  · cases access <;> simp [Lock.join, announce, hwaiting]
  · cases access <;> exact hexclusive
  · intro visitor hvisitor hphase
    rcases List.mem_append.mp hvisitor with hold | hlast
    · exact admits_announce (hrefused visitor hold hphase)
    · rw [List.mem_singleton.mp hlast] at hphase
      cases hphase

/-- A notified thread that is admitted enters. -/
theorem enter (hconsistent : lock.Consistent)
    (hvisitors : lock.visitors = before ++ ⟨name, access, .asleep true⟩ :: after)
    (hadmits : lock.admits access = true) :
    ({ lock.enter access with
        visitors := before ++ ⟨name, access, .holding⟩ :: after } : Lock).Consistent := by
  obtain ⟨⟨hnames, hreaders, hwriter, hwaiting, hexclusive⟩, hrefused⟩ := hconsistent
  rw [hvisitors] at hnames hreaders hwriter hwaiting hrefused
  have hstill : ∀ visitor ∈ before ++ ⟨name, access, .holding⟩ :: after,
      visitor.phase = .asleep false → (lock.enter access).admits visitor.access = false := by
    intro visitor hvisitor hphase
    rcases mem_split.mp hvisitor with rfl | hother
    · cases hphase
    · exact admits_enter (hrefused visitor (mem_split.mpr (.inr hother)) hphase)
  cases access with
  | read =>
      obtain ⟨hfree, -⟩ := admits_read.mp hadmits
      refine ⟨⟨by simpa using hnames, ?_, ?_, ?_, ?_⟩, hstill⟩
      · simp [Lock.enter, hreaders]
        omega
      · simpa [Lock.enter] using hwriter
      · simpa [Lock.enter] using hwaiting
      · intro hheld
        rw [show (lock.enter .read).writer = lock.writer from rfl, hfree] at hheld
        cases hheld
  | write =>
      obtain ⟨hfree, hnone⟩ := admits_write.mp hadmits
      refine ⟨⟨by simpa using hnames, ?_, ?_, ?_, fun _ => hnone⟩, hstill⟩
      · simpa [Lock.enter] using hreaders
      · simp [hfree] at hwriter
        simp [Lock.enter]
        omega
      · simp [Lock.enter, hwaiting]

/-- A notified thread that is not admitted goes back to sleep. -/
theorem refuse (hconsistent : lock.Consistent)
    (hvisitors : lock.visitors = before ++ ⟨name, access, .asleep true⟩ :: after)
    (hadmits : lock.admits access = false) :
    ({ lock with
        visitors := before ++ ⟨name, access, .asleep false⟩ :: after } : Lock).Consistent := by
  obtain ⟨⟨hnames, hreaders, hwriter, hwaiting, hexclusive⟩, hrefused⟩ := hconsistent
  rw [hvisitors] at hnames hreaders hwriter hwaiting hrefused
  refine ⟨⟨by simpa using hnames, by simpa using hreaders, by simpa using hwriter,
    by simpa using hwaiting, hexclusive⟩, ?_⟩
  intro visitor hvisitor hphase
  rcases mem_split.mp hvisitor with rfl | hother
  · exact hadmits
  · exact hrefused visitor (mem_split.mpr (.inr hother)) hphase

/-- A thread looks at the lock: nothing changes, or the thread had been notified, and
enters if it is admitted and goes back to sleep if not. -/
theorem wake_cases (hconsistent : lock.Consistent) (name : String) :
    (lock.wake name = lock ∧
      ∀ visitor ∈ lock.visitors, visitor.phase = .asleep true → visitor.name ≠ name) ∨
    ∃ before after access,
      lock.visitors = before ++ ⟨name, access, .asleep true⟩ :: after ∧
      (∀ other ∈ before ++ after, other.name ≠ name) ∧
      (lock.admits access = true ∧
          lock.wake name =
            { lock.enter access with visitors := before ++ ⟨name, access, .holding⟩ :: after } ∨
        lock.admits access = false ∧
          lock.wake name =
            { lock with visitors := before ++ ⟨name, access, .asleep false⟩ :: after }) := by
  cases hfind : lock.find? name with
  | none =>
      refine .inl ⟨by simp [Lock.wake, hfind], ?_⟩
      intro visitor hvisitor _
      exact find_eq_none.mp hfind visitor hvisitor
  | some found =>
      obtain ⟨hname, before, after, hvisitors, hothers⟩ := split_of_find hconsistent.names hfind
      by_cases hnotified : found.phase = .asleep true
      · obtain ⟨foundName, access, phase⟩ := found
        subst hname hnotified
        refine .inr ⟨before, after, access, hvisitors, hothers, ?_⟩
        by_cases hadmits : lock.admits access = true
        · have hentered : (lock.enter access).visitors = lock.visitors := by
            cases access <;> rfl
          refine .inl ⟨hadmits, ?_⟩
          simp only [Lock.wake, hfind, if_pos hadmits]
          exact revise_split (hentered.trans hvisitors) rfl hothers
        · refine .inr ⟨by simpa using hadmits, ?_⟩
          simp only [Lock.wake, hfind, if_neg hadmits]
          exact revise_split hvisitors rfl hothers
      · refine .inl ⟨?_, ?_⟩
        · unfold Lock.wake
          split
          · rename_i hsleeps
            rw [hfind] at hsleeps
            cases hsleeps
            exact absurd rfl hnotified
          · rfl
        · intro visitor hvisitor hphase hsame
          rw [hvisitors] at hvisitor
          rcases mem_split.mp hvisitor with rfl | hother
          · exact hnotified hphase
          · exact hothers visitor hother hsame

/-- A thread that looks at the lock leaves it consistent. -/
theorem wake (hconsistent : lock.Consistent) (name : String) : (lock.wake name).Consistent := by
  rcases hconsistent.wake_cases name with ⟨hsame, -⟩ | ⟨_, _, _, hvisitors, -, hlook⟩
  · rw [hsame]
    exact hconsistent
  · rcases hlook with ⟨hadmits, hentered⟩ | ⟨hadmits, hasleep⟩
    · rw [hentered]
      exact hconsistent.enter hvisitors hadmits
    · rw [hasleep]
      exact hconsistent.refuse hvisitors hadmits

/-- A reader that leaves notifies the others if it was the last, and a writer always
does. -/
theorem leave (hconsistent : lock.Consistent) (name : String) : (lock.leave name).Consistent := by
  unfold Lock.leave
  split
  · rename_i found access hfind
    obtain ⟨hname, before, after, hvisitors, hothers⟩ := split_of_find hconsistent.names hfind
    obtain ⟨⟨hnames, hreaders, hwriter, hwaiting, hexclusive⟩, hrefused⟩ := hconsistent
    simp only [filter_split hvisitors hname hothers]
    rw [hvisitors] at hnames hreaders hwriter hwaiting hrefused
    have hfewer : ((before ++ after).map Visitor.name).Nodup := by
      refine List.Nodup.sublist ?_ hnames
      exact ((List.sublist_cons_self _ after).append_left before).map _
    cases access with
    | read =>
        have hcounted : ({ lock with
            readers := lock.readers - 1, visitors := before ++ after } : Lock).Counted := by
          refine ⟨hfewer, ?_, by simpa using hwriter, by simpa using hwaiting, ?_⟩
          · simp [hreaders]
          · intro hheld
            simp [hexclusive hheld]
        by_cases hlast : lock.readers - 1 = 0
        · simp only [hlast, if_true] at hcounted ⊢
          exact hcounted.notifyAll
        · simp only [hlast, if_false]
          refine ⟨hcounted, ?_⟩
          intro visitor hvisitor hphase
          have hold := hrefused visitor (mem_split.mpr (.inr hvisitor)) hphase
          cases haccess : visitor.access <;> simp_all [admits]
    | write =>
        refine Counted.notifyAll ⟨hfewer, by simpa using hreaders, ?_, by simpa using hwaiting, ?_⟩
        · have hone : lock.writer.toNat ≤ 1 := Bool.toNat_le lock.writer
          simp at hwriter ⊢
          omega
        · intro hheld
          cases hheld
  · exact hconsistent

/-- Whatever a thread does, the lock stays consistent. -/
theorem step (hconsistent : lock.Consistent) (event : LockEvent) :
    (lock.step event).Consistent := by
  cases event with
  | ask name access =>
      by_cases hthere : (lock.find? name).isSome = true
      · simp only [Lock.step, if_pos hthere]
        exact hconsistent
      · have hnew : lock.find? name = none := by simpa using hthere
        simp only [Lock.step, if_neg hthere, ask_eq_wake hnew]
        exact (hconsistent.join hnew access).wake name
  | wake name => exact hconsistent.wake name
  | leave name => exact hconsistent.leave name

/-- Whatever threads do, the lock stays consistent. -/
theorem run (hconsistent : lock.Consistent) (events : List LockEvent) :
    (lock.run events).Consistent := by
  induction events generalizing lock with
  | nil => exact hconsistent
  | cons event events ih => exact ih (hconsistent.step event)

/-- A thread that holds the lock held it before, or has been admitted. -/
theorem holds_wake (hconsistent : lock.Consistent) {visitor : Visitor}
    (hvisitor : visitor ∈ (lock.wake name).visitors) (hholds : visitor.holds = true) :
    visitor ∈ lock.visitors ∨ lock.admits visitor.access = true := by
  rcases hconsistent.wake_cases name with ⟨hsame, -⟩ | ⟨before, after, access, hvisitors, -, hlook⟩
  · rw [hsame] at hvisitor
    exact .inl hvisitor
  · rw [hvisitors]
    rcases hlook with ⟨hadmits, hentered⟩ | ⟨-, hasleep⟩
    · rw [hentered] at hvisitor
      rcases mem_split.mp hvisitor with rfl | hother
      · exact .inr hadmits
      · exact .inl (mem_split.mpr (.inr hother))
    · rw [hasleep] at hvisitor
      rcases mem_split.mp hvisitor with rfl | hother
      · cases hholds
      · exact .inl (mem_split.mpr (.inr hother))

/-- A thread that holds the lock when another has left held it before. -/
theorem holds_leave {visitor : Visitor} (hvisitor : visitor ∈ (lock.leave name).visitors)
    (hholds : visitor.holds = true) : visitor ∈ lock.visitors := by
  have hnotified : ∀ {visitors : List Visitor}, visitor ∈ visitors.map Visitor.notify →
      visitor ∈ visitors := by
    intro visitors hmem
    obtain ⟨other, hother, rfl⟩ := List.mem_map.mp hmem
    cases hphase : other.phase with
    | asleep notified => simp [Visitor.holds, Visitor.notify, hphase] at hholds
    | holding => simpa [Visitor.notify, hphase] using hother
  unfold Lock.leave at hvisitor
  split at hvisitor
  · rename_i access _
    cases access with
    | read =>
        by_cases hlast : lock.readers - 1 = 0
        · simp only [hlast, if_true, Lock.notifyAll] at hvisitor
          exact (List.mem_filter.mp (hnotified hvisitor)).1
        · simp only [hlast, if_false] at hvisitor
          exact (List.mem_filter.mp hvisitor).1
    | write => exact (List.mem_filter.mp (hnotified hvisitor)).1
  · exact hvisitor

/-- Whatever a thread does, a thread that holds the lock held it before, or has been
admitted. -/
theorem holds_step (hconsistent : lock.Consistent) {event : LockEvent} {visitor : Visitor}
    (hvisitor : visitor ∈ (lock.step event).visitors) (hholds : visitor.holds = true) :
    visitor ∈ lock.visitors ∨ lock.admits visitor.access = true := by
  cases event with
  | ask name access =>
      by_cases hthere : (lock.find? name).isSome = true
      · simp only [Lock.step, if_pos hthere] at hvisitor
        exact .inl hvisitor
      · have hnew : lock.find? name = none := by simpa using hthere
        simp only [Lock.step, if_neg hthere, ask_eq_wake hnew] at hvisitor
        have hasked : ∀ other : Access, (lock.join name access).admits other = true →
            lock.admits other = true := by
          intro other
          cases access <;> cases other <;> simp_all [Lock.join, announce, admits]
        rcases (hconsistent.join hnew access).holds_wake hvisitor hholds with hold | hadmits
        · rcases List.mem_append.mp hold with hold | hlast
          · exact .inl hold
          · rw [List.mem_singleton.mp hlast] at hholds
            cases hholds
        · exact .inr (hasked _ hadmits)
  | wake name =>
      exact hconsistent.holds_wake hvisitor hholds
  | leave name =>
      exact .inl (holds_leave hvisitor hholds)

end Consistent

/-! ## Once nothing moves -/

/-- Looking at the lock leaves nobody of that name notified, and notifies nobody. -/
theorem Consistent.notified_wake {lock : Lock} (hconsistent : lock.Consistent) {name : String}
    {visitor : Visitor} (hvisitor : visitor ∈ (lock.wake name).visitors)
    (hphase : visitor.phase = .asleep true) :
    visitor ∈ lock.visitors ∧ visitor.name ≠ name := by
  rcases hconsistent.wake_cases name with
    ⟨hsame, hothers⟩ | ⟨before, after, access, hvisitors, hothers, hlook⟩
  · rw [hsame] at hvisitor
    exact ⟨hvisitor, hothers visitor hvisitor hphase⟩
  · have hkept : visitor ∈ before ++ after := by
      rcases hlook with ⟨-, hentered⟩ | ⟨-, hasleep⟩
      · rw [hentered] at hvisitor
        refine (mem_split.mp hvisitor).resolve_left fun hthis => ?_
        rw [hthis] at hphase
        cases hphase
      · rw [hasleep] at hvisitor
        refine (mem_split.mp hvisitor).resolve_left fun hthis => ?_
        rw [hthis] at hphase
        cases hphase
    rw [hvisitors]
    exact ⟨mem_split.mpr (.inr hkept), hothers visitor hkept⟩

/-- Once every thread that had been notified has looked at the lock, nothing moves. -/
theorem Consistent.still_wakes {lock : Lock} (hconsistent : lock.Consistent)
    {names : List String}
    (hnames : ∀ visitor ∈ lock.visitors, visitor.phase = .asleep true → visitor.name ∈ names) :
    (names.foldl Lock.wake lock).Still := by
  induction names generalizing lock with
  | nil =>
      intro visitor hvisitor hphase
      cases hnames visitor hvisitor hphase
  | cons name names ih =>
      apply ih (hconsistent.wake name)
      intro visitor hvisitor hphase
      obtain ⟨hold, hother⟩ := hconsistent.notified_wake hvisitor hphase
      exact (List.mem_cons.mp (hnames visitor hold hphase)).resolve_left hother

/-- When all threads have looked at the lock, nothing moves. -/
theorem still_settle {lock : Lock} (hconsistent : lock.Consistent) : lock.settle.Still := by
  apply hconsistent.still_wakes
  intro visitor hvisitor _
  exact List.mem_map_of_mem hvisitor

/-- Letting all threads look at the lock is a run. -/
theorem settle_eq_run (lock : Lock) :
    lock.settle = lock.run ((lock.visitors.map Visitor.name).map .wake) := by
  simp only [settle, run, List.foldl_map]
  rfl

/-! ## The monitor -/

/-- The lock is a monitor. -/
structure Monitor (lock : Lock) : Prop where
  /-- Every thread is with the lock once. -/
  names : (lock.visitors.map Visitor.name).Nodup
  /-- The reader counter is the number of readers that hold the lock. -/
  readers_eq : lock.readers = count .read true lock.visitors
  /-- The writer flag is set exactly when one writer holds the lock. -/
  writer_iff : lock.writer = true ↔ count .write true lock.visitors = 1
  /-- The waiter counter is the number of writers that wait. -/
  waiting_eq : lock.waitingWriters = count .write false lock.visitors
  /-- A writer that holds the lock holds it alone. -/
  alone : ∀ writer ∈ lock.visitors, writer.access = .write → writer.holds = true →
    ∀ other ∈ lock.visitors, other.holds = true → other = writer
  /-- Whatever happens next, no reader enters while a writer waits. -/
  admitted : ∀ event, ∀ reader ∈ (lock.step event).visitors,
    reader.access = .read → reader.holds = true → reader ∉ lock.visitors →
    ∀ other ∈ lock.visitors, other.access = .write → other.holds = true
  /-- A reader that sleeps without having been notified does so because of a writer. -/
  reader_sleeps : ∀ reader ∈ lock.visitors, reader.access = .read →
    reader.phase = .asleep false → ∃ writer ∈ lock.visitors, writer.access = .write
  /-- A writer that sleeps without having been notified does so because of a thread that
  holds the lock. -/
  writer_sleeps : ∀ writer ∈ lock.visitors, writer.access = .write →
    writer.phase = .asleep false → ∃ holder ∈ lock.visitors, holder.holds = true
  /-- Once nothing moves, nobody waits while the lock is free. -/
  idle : lock.Still → (∀ visitor ∈ lock.visitors, visitor.holds = false) → lock.visitors = []
  /-- Once nothing moves, readers wait only behind a writer. -/
  behind : lock.Still → ∀ reader ∈ lock.visitors, reader.access = .read →
    reader.holds = false → ∃ writer ∈ lock.visitors, writer.access = .write
  /-- Nothing moves once every thread that has been notified has looked at the lock. -/
  settles : lock.settle.Still ∧ ∃ events, lock.settle = lock.run events

namespace Consistent

variable {lock : Lock}

/-- The writer flag is set exactly when one writer holds the lock. -/
theorem writer_iff (hconsistent : lock.Consistent) :
    lock.writer = true ↔ count .write true lock.visitors = 1 := by
  have hwriter := hconsistent.writer_eq
  cases hheld : lock.writer <;> simp [hheld] at hwriter <;> simp <;> omega

/-- A writer that holds the lock holds it alone. -/
theorem alone (hconsistent : lock.Consistent) {writer other : Visitor}
    (hwriter : writer ∈ lock.visitors) (haccess : writer.access = .write)
    (hholds : writer.holds = true) (hother : other ∈ lock.visitors)
    (hotherHolds : other.holds = true) : other = writer := by
  obtain ⟨before, after, hvisitors⟩ := List.append_of_mem hwriter
  have hone : lock.writer.toNat ≤ 1 := Bool.toNat_le lock.writer
  have hcount := hconsistent.writer_eq
  have hthis : isAt .write true writer = true := by simp [isAt, haccess, hholds]
  simp only [hvisitors, count_append, count_cons, hthis, if_true] at hcount
  have hheld : lock.writer = true := by
    cases hflag : lock.writer with
    | false => simp [hflag] at hcount
    | true => rfl
  rw [hvisitors] at hother
  rcases mem_split.mp hother with hsame | hthere
  · exact hsame
  exfalso
  cases hwants : other.access with
  | read =>
      have hpos : 0 < count .read true lock.visitors :=
        count_pos.mpr ⟨other, hvisitors ▸ hother, hwants, hotherHolds⟩
      have hnone := hconsistent.exclusive hheld
      have hreaders := hconsistent.readers_eq
      omega
  | write =>
      have hpos : 0 < count .write true (before ++ after) :=
        count_pos.mpr ⟨other, hthere, hwants, hotherHolds⟩
      rw [count_append] at hpos
      omega

/-- A reader that is not admitted is kept out by a writer. -/
theorem exists_writer (hconsistent : lock.Consistent) (hrefused : lock.admits .read = false) :
    ∃ writer ∈ lock.visitors, writer.access = .write := by
  by_cases hheld : lock.writer = true
  · have hone := hconsistent.writer_iff.mp hheld
    obtain ⟨writer, hwriter, haccess, -⟩ := count_pos.mp (hone ▸ Nat.one_pos)
    exact ⟨writer, hwriter, haccess⟩
  · have hwaits : 0 < count .write false lock.visitors := by
      rw [← hconsistent.waiting_eq]
      apply Nat.pos_of_ne_zero
      intro hnone
      simp [admits_read.mpr ⟨by simpa using hheld, hnone⟩] at hrefused
    obtain ⟨writer, hwriter, haccess, -⟩ := count_pos.mp hwaits
    exact ⟨writer, hwriter, haccess⟩

/-- A writer that is not admitted is kept out by a thread that holds the lock. -/
theorem exists_holder (hconsistent : lock.Consistent) (hrefused : lock.admits .write = false) :
    ∃ holder ∈ lock.visitors, holder.holds = true := by
  by_cases hheld : lock.writer = true
  · have hone := hconsistent.writer_iff.mp hheld
    obtain ⟨holder, hholder, -, hholds⟩ := count_pos.mp (hone ▸ Nat.one_pos)
    exact ⟨holder, hholder, hholds⟩
  · have hreads : 0 < count .read true lock.visitors := by
      rw [← hconsistent.readers_eq]
      apply Nat.pos_of_ne_zero
      intro hnone
      simp [admits_write.mpr ⟨by simpa using hheld, hnone⟩] at hrefused
    obtain ⟨holder, hholder, -, hholds⟩ := count_pos.mp hreads
    exact ⟨holder, hholder, hholds⟩

/-- While a writer waits no reader is admitted. -/
theorem no_writer_waits (hconsistent : lock.Consistent) (hadmits : lock.admits .read = true)
    {writer : Visitor} (hwriter : writer ∈ lock.visitors) (haccess : writer.access = .write) :
    writer.holds = true := by
  cases hholds : writer.holds with
  | true => rfl
  | false =>
      have hwaits : 0 < count .write false lock.visitors :=
        count_pos.mpr ⟨writer, hwriter, haccess, hholds⟩
      have hnone := (admits_read.mp hadmits).2
      have hwaiting := hconsistent.waiting_eq
      omega

/-- Once nothing moves, a thread that does not hold the lock would not be admitted. -/
theorem refused_of_still (hconsistent : lock.Consistent) (hstill : lock.Still)
    {visitor : Visitor} (hvisitor : visitor ∈ lock.visitors) (hwaits : visitor.holds = false) :
    lock.admits visitor.access = false := by
  apply hconsistent.refused visitor hvisitor
  have hmoves := hstill visitor hvisitor
  cases hphase : visitor.phase with
  | asleep notified =>
      cases notified with
      | false => rfl
      | true => exact absurd hphase hmoves
  | holding => simp [Visitor.holds, hphase] at hwaits

/-- A consistent lock is a monitor. -/
theorem monitor (hconsistent : lock.Consistent) : lock.Monitor where
  names := hconsistent.names
  readers_eq := hconsistent.readers_eq
  writer_iff := hconsistent.writer_iff
  waiting_eq := hconsistent.waiting_eq
  alone := by
    intro writer hwriter haccess hholds other hother hotherHolds
    exact hconsistent.alone hwriter haccess hholds hother hotherHolds
  admitted := by
    intro event reader hreader haccess hholds hnew other hother hwants
    have hadmits := (hconsistent.holds_step hreader hholds).resolve_left hnew
    rw [haccess] at hadmits
    exact hconsistent.no_writer_waits hadmits hother hwants
  reader_sleeps := by
    intro reader hreader haccess hphase
    have hrefused := hconsistent.refused reader hreader hphase
    rw [haccess] at hrefused
    exact hconsistent.exists_writer hrefused
  writer_sleeps := by
    intro writer hwriter haccess hphase
    have hrefused := hconsistent.refused writer hwriter hphase
    rw [haccess] at hrefused
    exact hconsistent.exists_holder hrefused
  idle := by
    intro hstill hfree
    have hnoWriter : ∀ visitor ∈ lock.visitors, visitor.access ≠ .write := by
      intro visitor hvisitor haccess
      have hrefused := hconsistent.refused_of_still hstill hvisitor (hfree visitor hvisitor)
      rw [haccess] at hrefused
      obtain ⟨holder, hholder, hholds⟩ := hconsistent.exists_holder hrefused
      simp [hfree holder hholder] at hholds
    apply List.eq_nil_iff_forall_not_mem.mpr
    intro visitor hvisitor
    have hrefused := hconsistent.refused_of_still hstill hvisitor (hfree visitor hvisitor)
    cases haccess : visitor.access with
    | read =>
        rw [haccess] at hrefused
        obtain ⟨writer, hwriter, hwants⟩ := hconsistent.exists_writer hrefused
        exact hnoWriter writer hwriter hwants
    | write => exact hnoWriter visitor hvisitor haccess
  behind := by
    intro hstill reader hreader haccess hwaits
    have hrefused := hconsistent.refused_of_still hstill hreader hwaits
    rw [haccess] at hrefused
    exact hconsistent.exists_writer hrefused
  settles := ⟨still_settle hconsistent, _, lock.settle_eq_run⟩

end Consistent

/-- Whatever threads do, the lock is a monitor in every state that it reaches. -/
theorem run_monitor (events : List LockEvent) : (Lock.free.run events).Monitor :=
  (Consistent.free.run events).monitor

end Lock

end DurableStore
