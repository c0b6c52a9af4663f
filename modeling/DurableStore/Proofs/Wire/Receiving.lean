import DurableStore.Proofs.Wire.Sequences
import DurableStore.Wire.Receiver

/-!
# Receiving values in pieces

What a receiver returns depends on the octets that have arrived and not on the
pieces in which they came.  The threshold that saves it vain attempts is sound:
as long as it is not reached, the buffer is too short to hold a value, whatever
its octets are.

Main results:

- Definition `Receiver.Sound`: the threshold is justified.
- Theorem `Receiver.Sound.attempt`: one attempt judges the buffer.
- Theorem `Receiver.Sound.drain`: taking all values off a buffer finds its
  division.
- Theorems `Stream.Sound.read` and `Stream.Sound.next`: the next value of a stream
  is that of the octets that have arrived.
-/

namespace DurableStore

/-! ## Pieces -/

namespace Bytes

/-- A read of at least one octet leaves fewer. -/
theorem length_drop_cons_le {size : Nat} (hsize : 0 < size) (first : UInt8) (rest : Bytes) :
    ((first :: rest).drop size).length ≤ rest.length := by
  rw [List.length_drop, List.length_cons]
  omega

/-- The pieces that enough reads deliver are the octets that were there. -/
theorem flatten_chunksWithin {size : Nat} (hsize : 0 < size) {fuel : Nat} {bytes : Bytes}
    (hfuel : bytes.length ≤ fuel) : (chunksWithin size fuel bytes).flatten = bytes := by
  induction fuel generalizing bytes with
  | zero =>
      obtain rfl := List.eq_nil_of_length_eq_zero (Nat.le_zero.mp hfuel)
      rfl
  | succ fuel ih =>
      cases bytes with
      | nil => rfl
      | cons first rest =>
          have hrest : ((first :: rest).drop size).length ≤ fuel :=
            (length_drop_cons_le hsize first rest).trans (Nat.le_of_succ_le_succ hfuel)
          rw [chunksWithin, List.flatten_cons, ih hrest, List.take_append_drop]
          exact List.cons_ne_nil _ _

/-- The pieces of a string are the string. -/
theorem flatten_chunks {size : Nat} (hsize : 0 < size) (bytes : Bytes) :
    (chunks size bytes).flatten = bytes :=
  flatten_chunksWithin hsize (Nat.le_refl _)

/-- Fuel for more reads than there are octets delivers nothing more. -/
theorem chunksWithin_congr {size : Nat} (hsize : 0 < size) {fuel more : Nat} {bytes : Bytes}
    (hfuel : bytes.length ≤ fuel) (hmore : bytes.length ≤ more) :
    chunksWithin size fuel bytes = chunksWithin size more bytes := by
  induction fuel generalizing more bytes with
  | zero =>
      obtain rfl := List.eq_nil_of_length_eq_zero (Nat.le_zero.mp hfuel)
      cases more <;> rfl
  | succ fuel ih =>
      cases bytes with
      | nil => cases more <;> rfl
      | cons first rest =>
          cases more with
          | zero => cases hmore
          | succ more =>
              have hrest := length_drop_cons_le hsize first rest
              have hless := ih (hrest.trans (Nat.le_of_succ_le_succ hfuel))
                (hrest.trans (Nat.le_of_succ_le_succ hmore))
              simp only [chunksWithin, hless]

/-- The first piece of a string is its beginning, the others are those of the
rest. -/
theorem chunks_of_ne_nil {size : Nat} (hsize : 0 < size) {bytes : Bytes} (hbytes : bytes ≠ []) :
    chunks size bytes = bytes.take size :: chunks size (bytes.drop size) := by
  cases bytes with
  | nil => contradiction
  | cons first rest =>
      have hrest := length_drop_cons_le hsize first rest
      simp only [chunks, List.length_cons, chunksWithin]
      rw [chunksWithin_congr hsize hrest (Nat.le_refl _)]

end Bytes

/-! ## Judging octets -/

section Judge

variable {limits : Limits} {octets rest : Bytes}

/-- What the first attempt on some octets amounts to, and the octets that it
leaves. -/
def judge (limits : Limits) (octets : Bytes) : Attempt × Bytes :=
  match readValue limits limits.depth ⟨0, octets⟩ with
  | .ok (value, next) => (.value value next.offset, next.rest)
  | .error error => (if error.isShort then .short else .malformed error, octets)

/-- Octets that begin with a record yield its value. -/
theorem judge_record {record : Record} (hholds : record.Holds limits) (rest : Bytes) :
    judge limits (record.octets ++ rest) =
      (.value record.value record.octets.length, rest) := by
  rw [judge, hholds rest, Nat.zero_add]

/-- Octets that are too few yield nothing. -/
theorem judge_short {error : DecodeError}
    (hread : readValue limits limits.depth ⟨0, octets⟩ = .error error)
    (hshort : error.isShort = true) : judge limits octets = (.short, octets) := by
  simp only [judge, hread, if_pos hshort]

/-- Octets that are the beginning of no value yield the obstacle. -/
theorem judge_malformed {error : DecodeError} (hobstacle : obstacle? limits octets = some error) :
    judge limits octets = (.malformed error, octets) := by
  rcases obstacle_eq_some.mp hobstacle with ⟨hread, hfinal⟩
  have hlong : ¬ error.isShort = true := by simp [hfinal]
  simp only [judge, hread, if_neg hlong]

/-- The octets begin with a record, are too few, or are the beginning of no
value. -/
theorem judge_cases (limits : Limits) (octets : Bytes) :
    (∃ record : Record, ∃ rest, record.Holds limits ∧ octets = record.octets ++ rest) ∨
      (∃ error, readValue limits limits.depth ⟨0, octets⟩ = .error error ∧
        error.isShort = true) ∨
      ∃ error, obstacle? limits octets = some error := by
  cases hread : readValue limits limits.depth ⟨0, octets⟩ with
  | ok outcome =>
      rcases outcome with ⟨value, next⟩
      rcases readValue_reads hread with ⟨used, hsplit, -, hreads⟩
      exact .inl ⟨⟨value, used⟩, next.rest, hreads, hsplit⟩
  | error error =>
      by_cases hshort : error.isShort = true
      · exact .inr (.inl ⟨error, rfl, hshort⟩)
      · exact .inr (.inr ⟨error, obstacle_eq_some.mpr ⟨hread, by simpa using hshort⟩⟩)

/-- Octets that do not begin with a value yield the obstacle, if there is one,
and all of them are left. -/
theorem judge_rest {records : List Record} {data : Bytes}
    (hsplits : Splits limits data records rest) :
    judge limits rest = (((obstacle? limits rest).map Attempt.malformed).getD .short, rest) := by
  rcases hsplits.stops with ⟨error, hstop⟩
  cases hobstacle : obstacle? limits rest with
  | none => exact judge_short hstop (isShort_of_obstacle_eq_none hstop hobstacle)
  | some obstacle => exact judge_malformed hobstacle

/-- Octets that are too few are all left. -/
theorem rest_of_judge (hjudge : judge limits octets = (.short, rest)) : rest = octets := by
  rcases judge_cases limits octets with ⟨record, tail, hholds, rfl⟩ | ⟨error, hread, hshort⟩ |
    ⟨error, hobstacle⟩
  · rw [judge_record hholds] at hjudge
    cases hjudge
  · rw [judge_short hread hshort] at hjudge
    exact (congrArg Prod.snd hjudge).symm
  · rw [judge_malformed hobstacle] at hjudge
    cases hjudge

/-- Octets that are added leave a judgement as it is, unless there were too
few. -/
theorem judge_append {outcome : Attempt} (hjudge : judge limits octets = (outcome, rest))
    (hdone : outcome ≠ .short) (more : Bytes) :
    judge limits (octets ++ more) = (outcome, rest ++ more) := by
  rcases judge_cases limits octets with ⟨record, tail, hholds, rfl⟩ | ⟨error, hread, hshort⟩ |
    ⟨error, hobstacle⟩
  · rw [judge_record hholds, Prod.mk.injEq] at hjudge
    rcases hjudge with ⟨rfl, rfl⟩
    rw [List.append_assoc, judge_record hholds]
  · rw [judge_short hread hshort, Prod.mk.injEq] at hjudge
    exact absurd hjudge.1.symm hdone
  · rw [judge_malformed hobstacle, Prod.mk.injEq] at hjudge
    rcases hjudge with ⟨rfl, rfl⟩
    rw [judge_malformed (obstacle_append hobstacle more)]

end Judge

/-! ## Attempts -/

namespace Receiver

variable {limits : Limits} {receiver : Receiver}

/-- The threshold is justified: a buffer that begins with these octets and does
not reach it is too short. -/
def Sound (limits : Limits) (receiver : Receiver) : Prop :=
  Waits DecodeError.needed? (readValue limits limits.depth) 0 receiver.buffer receiver.threshold

/-- The lowest threshold is justified for every buffer. -/
theorem sound_of_threshold_eq_one (hthreshold : receiver.threshold = 1) :
    receiver.Sound limits := by
  intro more hshort
  have hnone : receiver.buffer ++ more = [] := by
    apply List.eq_nil_of_length_eq_zero
    omega
  rw [hnone]
  exact ⟨.here (.noValue 0), readValue_nil limits limits.depth 0, rfl⟩

/-- A receiver that has seen nothing is sound. -/
theorem sound_empty : empty.Sound limits :=
  sound_of_threshold_eq_one rfl

/-- A receiver that is to attempt again is sound. -/
theorem sound_rearm : receiver.rearm.Sound limits :=
  sound_of_threshold_eq_one rfl

/-- Another piece leaves the threshold justified. -/
theorem Sound.push (hsound : receiver.Sound limits) (piece : Bytes) :
    (receiver.push piece).Sound limits := by
  intro more hshort
  simp only [Receiver.push, List.append_assoc] at hshort ⊢
  exact hsound (piece ++ more) hshort

/-- An attempt judges the buffer, whether or not the threshold is reached. -/
theorem Sound.attempt (hsound : receiver.Sound limits) :
    ∃ outcome left, receiver.attempt limits = (outcome, left) ∧
      judge limits receiver.buffer = (outcome, left.buffer) ∧ left.Sound limits := by
  by_cases hlength : Bytes.hasLength receiver.threshold receiver.buffer = true
  · unfold Receiver.attempt
    rw [if_pos hlength]
    cases hread : readValue limits limits.depth ⟨0, receiver.buffer⟩ with
    | ok outcome =>
        exact ⟨_, _, rfl, by simp only [judge, hread], sound_of_threshold_eq_one rfl⟩
    | error error =>
        cases hneeded : error.needed? with
        | none =>
            have hfinal : error.isShort = false := by simp [DecodeError.isShort, hneeded]
            simp only [hneeded]
            exact ⟨_, _, rfl, judge_malformed (obstacle_eq_some.mpr ⟨hread, hfinal⟩), hsound⟩
        | some needed =>
            rcases readValue_waits hread hneeded with ⟨hfurther, hwaits⟩
            have hmax : max needed (receiver.buffer.length + 1) = needed := by omega
            have hshort : error.isShort = true := by simp [DecodeError.isShort, hneeded]
            simp only [hneeded, hmax]
            exact ⟨_, _, rfl, judge_short hread hshort, hwaits⟩
  · have hsmall : receiver.buffer.length < receiver.threshold := by
      rw [Bytes.hasLength_iff] at hlength
      omega
    obtain ⟨error, hread, hneeded⟩ := hsound [] (by rw [List.append_nil]; omega)
    rw [List.append_nil] at hread
    rw [Receiver.attempt, if_neg hlength]
    exact ⟨.short, receiver, rfl, judge_short hread hneeded, hsound⟩

/-- Taking pieces one by one judges all of them together. -/
theorem Sound.next (hsound : receiver.Sound limits) (pieces : List Bytes) :
    ∃ outcome left more, receiver.next limits pieces = (outcome, left, more) ∧
      judge limits (receiver.buffer ++ pieces.flatten) = (outcome, left.buffer ++ more.flatten) ∧
      left.Sound limits ∧ (outcome = .short → more = []) := by
  induction pieces generalizing receiver with
  | nil =>
      rcases hsound.attempt with ⟨outcome, left, hattempt, hjudge, hleft⟩
      refine ⟨outcome, left, [], by rw [Receiver.next, hattempt], ?_, hleft, fun _ => rfl⟩
      simpa using hjudge
  | cons piece pieces ih =>
      rcases hsound.attempt with ⟨outcome, left, hattempt, hjudge, hleft⟩
      by_cases hshort : outcome = .short
      · subst hshort
        have hbuffer := rest_of_judge hjudge
        rcases ih (hleft.push piece) with ⟨outcome, last, more, hnext, hall, hlast⟩
        refine ⟨outcome, last, more, by rw [Receiver.next, hattempt]; exact hnext, ?_, hlast⟩
        simpa [Receiver.push, hbuffer] using hall
      · refine ⟨outcome, left, piece :: pieces, ?_, judge_append hjudge hshort _, hleft,
          fun hsame => absurd hsame hshort⟩
        rw [Receiver.next, hattempt]
        cases outcome with
        | short => contradiction
        | value value size => rfl
        | malformed error => rfl

/-- Taking values off a buffer finds its division, if there is fuel for every
record and for the rest. -/
theorem Sound.drainWithin {records : List Record} {rest : Bytes} (hsound : receiver.Sound limits)
    (hsplits : Splits limits receiver.buffer records rest) {fuel : Nat}
    (hfuel : records.length < fuel) (done : List (Value × Nat)) :
    ∃ left, drainWithin limits fuel done receiver =
        ⟨done.reverse ++ records.map Record.sized, left, obstacle? limits rest⟩ ∧
      left.buffer = rest ∧ left.Sound limits := by
  induction records generalizing receiver fuel done with
  | nil =>
      rcases hsound.attempt with ⟨outcome, left, hattempt, hjudge, hleft⟩
      rcases Nat.exists_eq_add_of_lt hfuel with ⟨fuel, rfl⟩
      have hrest := hsplits.partition
      rw [Record.joined_nil, List.nil_append] at hrest
      rw [hrest, judge_rest hsplits, Prod.mk.injEq] at hjudge
      rcases hjudge with ⟨hpause, hbuffer⟩
      refine ⟨left, ?_, hbuffer.symm, hleft⟩
      rw [List.length_nil, Nat.zero_add, Receiver.drainWithin, hattempt, ← hpause]
      cases obstacle? limits rest <;> simp
  | cons record records ih =>
      rcases hsound.attempt with ⟨outcome, left, hattempt, hjudge, hleft⟩
      rw [List.length_cons] at hfuel
      obtain ⟨fuel, rfl⟩ : ∃ fuel', fuel = fuel' + 1 := ⟨fuel - 1, by omega⟩
      have hrecord := hsplits.holds record List.mem_cons_self
      have hbuffer := hsplits.partition
      rw [Record.joined_cons, List.append_assoc] at hbuffer
      rw [hbuffer] at hsplits
      rw [hbuffer, judge_record hrecord, Prod.mk.injEq] at hjudge
      rcases hjudge with ⟨rfl, hrest⟩
      rcases hsplits.head_eq hrecord with ⟨others, hothers, hmore⟩
      cases hothers
      rw [hrest] at hmore
      have hfewer : records.length < fuel := by omega
      rcases ih hleft hmore hfewer (record.sized :: done) with ⟨last, hlast, hend⟩
      refine ⟨last, ?_, hend⟩
      rw [Receiver.drainWithin, hattempt]
      simpa [Record.sized] using hlast

/-- Taking all values off a buffer finds its division. -/
theorem Sound.drain {records : List Record} {rest : Bytes} (hsound : receiver.Sound limits)
    (hsplits : Splits limits receiver.buffer records rest) :
    ∃ left, receiver.drain limits =
        ⟨records.map Record.sized, left, obstacle? limits rest⟩ ∧
      left.buffer = rest ∧ left.Sound limits :=
  hsound.drainWithin hsplits (Nat.lt_succ_of_le hsplits.length_le) []

end Receiver

/-! ## Values that are received -/

namespace Receiver

variable {limits : Limits} {receiver left : Receiver} {value : Value} {size : Nat}

/-- A value that an attempt yields keeps within the limits. -/
theorem attempt_fits (hattempt : receiver.attempt limits = (.value value size, left)) :
    value.Fits limits limits.depth := by
  unfold attempt at hattempt
  split at hattempt
  · cases hread : readValue limits limits.depth ⟨0, receiver.buffer⟩ with
    | ok outcome =>
        rw [hread] at hattempt
        cases hattempt
        exact Value.fits_of_read hread
    | error error =>
        rw [hread] at hattempt
        cases hneeded : error.needed? <;> simp [hneeded] at hattempt
  · cases hattempt

/-- A value that pieces yield keeps within the limits. -/
theorem next_fits {pieces more : List Bytes}
    (hnext : receiver.next limits pieces = (.value value size, left, more)) :
    value.Fits limits limits.depth := by
  induction pieces generalizing receiver with
  | nil =>
      rw [next] at hnext
      cases hattempt : receiver.attempt limits with
      | mk outcome last =>
          rw [hattempt] at hnext
          cases hnext
          exact attempt_fits hattempt
  | cons piece pieces ih =>
      rw [next] at hnext
      cases hattempt : receiver.attempt limits with
      | mk outcome last =>
          rw [hattempt] at hnext
          cases outcome with
          | short => exact ih hnext
          | value found size =>
              cases hnext
              exact attempt_fits hattempt
          | malformed error => cases hnext

end Receiver

/-- A value that a stream yields keeps within the limits. -/
theorem Stream.next_fits {limits : Limits} {readSize : Nat} {stream left : Stream} {value : Value}
    (hnext : stream.next limits readSize = (.value value, left)) :
    value.Fits limits limits.depth := by
  unfold Stream.next at hnext
  cases hattempt : stream.receiver.attempt limits with
  | mk outcome last =>
      rw [hattempt] at hnext
      cases outcome with
      | value found size =>
          cases hnext
          exact Receiver.attempt_fits hattempt
      | malformed error => cases hnext
      | short =>
          simp only [Stream.read] at hnext
          split at hnext
          · rename_i found size later more hmore
            cases hnext
            exact Receiver.next_fits hmore
          · cases hnext
          · split at hnext
            · cases hnext
            · split at hnext <;> cases hnext

/-! ## Streams -/

/-- The result of asking for a value when the octets that have arrived are
judged so, on a stream that may have been closed. -/
def Received.ofJudgement (closed : Bool) : Attempt × Bytes → Received
  | (.value found _, _) => .value found
  | (.malformed error, _) => .malformed error
  | (.short, rest) =>
      if !closed then .waiting
      else if rest.isEmpty then .ended
      else .cutOff rest.length

namespace Stream

variable {limits : Limits} {stream : Stream}

/-- The octets that have arrived and are not yet part of a value. -/
def octets (stream : Stream) : Bytes :=
  stream.receiver.buffer ++ stream.queued

/-- The receiver of the stream is sound. -/
def Sound (limits : Limits) (stream : Stream) : Prop :=
  stream.receiver.Sound limits

/-- Reading on yields the next value of the octets that have arrived. -/
theorem Sound.read (hsound : stream.Sound limits) {readSize : Nat} (hsize : 0 < readSize) :
    ∃ left, stream.read limits readSize =
        (.ofJudgement stream.closed (judge limits stream.octets), left) ∧
      left.octets = (judge limits stream.octets).2 ∧ left.closed = stream.closed ∧
      left.Sound limits := by
  obtain ⟨outcome, last, more, hnext, hall, hlast, hmore⟩ :=
    Receiver.Sound.next hsound (Bytes.chunks readSize stream.queued)
  rw [Bytes.flatten_chunks hsize] at hall
  simp only [Stream.read, hnext]
  unfold octets
  rw [hall]
  cases outcome with
  | value value size => exact ⟨_, rfl, rfl, rfl, hlast⟩
  | malformed error => exact ⟨_, rfl, rfl, rfl, hlast⟩
  | short =>
      obtain rfl := hmore rfl
      refine ⟨⟨last, [], stream.closed⟩, ?_, rfl, rfl, hlast⟩
      simp only [Received.ofJudgement, List.flatten_nil, List.append_nil]
      split
      · rfl
      · split <;> rfl

/-- The next value of a stream is that of the octets that have arrived. -/
theorem Sound.next (hsound : stream.Sound limits) {readSize : Nat} (hsize : 0 < readSize) :
    ∃ left, stream.next limits readSize =
        (.ofJudgement stream.closed (judge limits stream.octets), left) ∧
      left.octets = (judge limits stream.octets).2 ∧ left.closed = stream.closed ∧
      left.Sound limits := by
  rcases Receiver.Sound.attempt hsound with ⟨outcome, left, hattempt, hjudge, hleft⟩
  unfold Stream.next
  rw [hattempt]
  by_cases hshort : outcome = .short
  · -- The buffer does not suffice, so that the call reads on.
    subst hshort
    have hread : Sound limits { stream with receiver := left } := hleft
    simpa only [octets, rest_of_judge hjudge] using hread.read hsize
  · have hall := judge_append hjudge hshort stream.queued
    unfold octets
    rw [hall]
    cases outcome with
    | value value size => exact ⟨_, rfl, rfl, rfl, hleft⟩
    | malformed error => exact ⟨_, rfl, rfl, rfl, hleft⟩
    | short => contradiction

end Stream

end DurableStore
