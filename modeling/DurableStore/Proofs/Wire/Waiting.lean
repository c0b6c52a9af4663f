import DurableStore.Proofs.Wire.Streaming

/-!
# What a stream waits for

A call that asks a stream for a value attempts to decode what has been read, and
as long as that is too little it reads on.  This module looks at the moments at
which it turns to the octets still to come, which is where it waits if there are
none yet.  At every such moment the octets that have been read hold no further
value and are not malformed either, and the threshold below which no attempt is
made is never above the length at which they will be decided.  So a call returns
with the very read that decides them.

Main results:

- Definition `Stream.Pauses`: the moments at which a call reads on.
- Theorems `Stream.read_value` to `Stream.read_pull`: a call is attempts and reads
  in turn.
- Structure `Stream.Prompt`: what holds at these moments, and when a call returns.
- Theorem `Stream.run_prompt`: calls on a stream are prompt, whatever has happened
  before.
-/

namespace DurableStore

/-! ## Attempts that find too little -/

namespace Receiver

variable {limits : Limits} {receiver left : Receiver}

/-- Below the threshold an attempt finds too few octets without looking at them. -/
theorem attempt_of_lt (hlength : receiver.buffer.length < receiver.threshold) :
    receiver.attempt limits = (.short, receiver) := by
  have hfew : ¬ Bytes.hasLength receiver.threshold receiver.buffer = true := by
    rw [Bytes.hasLength_iff]
    omega
  rw [attempt, if_neg hfew]

/-- An attempt that finds too few octets leaves them, with the threshold above their
number. -/
theorem attempt_short (hattempt : receiver.attempt limits = (.short, left)) :
    left.buffer = receiver.buffer ∧ left.buffer.length < left.threshold := by
  unfold attempt at hattempt
  by_cases hlength : Bytes.hasLength receiver.threshold receiver.buffer = true
  · rw [if_pos hlength] at hattempt
    cases hread : readValue limits limits.depth ⟨0, receiver.buffer⟩ with
    | ok outcome =>
        rw [hread] at hattempt
        cases hattempt
    | error error =>
        cases hneeded : error.needed? with
        | none => simp [hread, hneeded] at hattempt
        | some needed =>
            simp only [hread, hneeded, Prod.mk.injEq, true_and] at hattempt
            subst hattempt
            exact ⟨rfl, Nat.lt_of_succ_le (Nat.le_max_right _ _)⟩
  · rw [if_neg hlength] at hattempt
    cases hattempt
    rw [Bytes.hasLength_iff] at hlength
    exact ⟨rfl, Nat.lt_of_not_le hlength⟩

/-- Another attempt finds too few octets as well. -/
theorem attempt_again (hattempt : receiver.attempt limits = (.short, left)) :
    left.attempt limits = (.short, left) :=
  attempt_of_lt (attempt_short hattempt).2

/-- What an attempt leaves is sound. -/
theorem Sound.of_attempt {outcome : Attempt} (hsound : receiver.Sound limits)
    (hattempt : receiver.attempt limits = (outcome, left)) : left.Sound limits := by
  obtain ⟨_, _, hsame, -, hleft⟩ := hsound.attempt
  cases hattempt.symm.trans hsame
  exact hleft

/-- Octets that begin with those of a sound receiver are too few below its
threshold. -/
theorem Sound.tooShort (hsound : receiver.Sound limits) (more : Bytes)
    (hlength : (receiver.buffer ++ more).length < receiver.threshold) :
    TooShort limits (receiver.buffer ++ more) := by
  obtain ⟨error, hread, hneeded⟩ := hsound more (by rwa [Nat.zero_add])
  exact ⟨error, decode_eq_error.mpr hread, DecodeError.isShort_iff.mp hneeded⟩

/-- The threshold of a sound receiver is never above the length at which the octets
it holds too few of are decided. -/
theorem Sound.threshold_le (hsound : receiver.Sound limits)
    (hshort : TooShort limits receiver.buffer) {more : Bytes}
    (hdecided : ¬ TooShort limits (receiver.buffer ++ more)) :
    receiver.threshold ≤ decidedAt limits (receiver.buffer ++ more) := by
  have hreached : decidedAt limits (receiver.buffer ++ more) ≤
      (receiver.buffer ++ more).length := by
    apply Nat.le_of_not_lt
    intro hbefore
    have hall := tooShort_of_lt_decidedAt (Nat.le_refl _) hbefore
    rw [List.take_length] at hall
    exact hdecided hall
  have hfurther : receiver.buffer.length ≤ decidedAt limits (receiver.buffer ++ more) := by
    apply Nat.le_of_not_lt
    intro hbehind
    have hbuffer := not_tooShort_of_decidedAt_le (by simp) hbehind.le
    rw [List.take_left] at hbuffer
    exact hbuffer hshort
  -- The octets at the length of the decision begin with those of the receiver.
  have hfirst := not_tooShort_of_decidedAt_le hreached (Nat.le_refl _)
  rw [List.take_append, List.take_of_length_le hfurther] at hfirst
  apply Nat.le_of_not_lt
  intro habove
  refine hfirst (hsound.tooShort _ ?_)
  rw [List.length_append, List.length_take]
  omega

/-- Octets that hold a value yield it to a sound receiver, which keeps those behind
it. -/
theorem Sound.attempt_value (hsound : receiver.Sound limits) {value : Value} {stop : Nat}
    (hdecode : decode limits receiver.buffer 0 = .ok (value, stop)) :
    ∃ left, receiver.attempt limits = (.value value stop, left) ∧
      left.buffer = receiver.buffer.drop stop := by
  obtain ⟨next, hread, rfl⟩ := decode_eq_ok.mp hdecode
  obtain ⟨used, hsplit, hoffset, -⟩ := readValue_reads hread
  rw [List.drop_zero] at hread hsplit
  rw [Nat.zero_add] at hoffset
  obtain ⟨outcome, left, hattempt, hjudge, -⟩ := hsound.attempt
  simp only [judge, hread, Prod.mk.injEq] at hjudge
  obtain ⟨rfl, hrest⟩ := hjudge
  refine ⟨left, hattempt, ?_⟩
  rw [← hrest, hoffset, hsplit, List.drop_left]

/-- Octets that are malformed are refused by a sound receiver, which keeps them. -/
theorem Sound.attempt_malformed (hsound : receiver.Sound limits) {error : DecodeError}
    (hdecode : decode limits receiver.buffer 0 = .error error) (hfinal : ¬ error.EndsEarly) :
    ∃ left, receiver.attempt limits = (.malformed error, left) ∧
      left.buffer = receiver.buffer := by
  have hlong : error.isShort = false := by
    rw [← Bool.not_eq_true, DecodeError.isShort_iff]
    exact hfinal
  have hread : readValue limits limits.depth ⟨0, receiver.buffer⟩ = .error error :=
    decode_eq_error.mp hdecode
  obtain ⟨outcome, left, hattempt, hjudge, -⟩ := hsound.attempt
  rw [judge_malformed (obstacle_eq_some.mpr ⟨hread, hlong⟩), Prod.mk.injEq] at hjudge
  obtain ⟨rfl, hrest⟩ := hjudge
  exact ⟨left, hattempt, hrest.symm⟩

/-- A receiver whose attempt settles the matter takes no piece. -/
theorem next_settled {outcome : Attempt} (hattempt : receiver.attempt limits = (outcome, left))
    (hsettled : outcome ≠ .short) (pieces : List Bytes) :
    receiver.next limits pieces = (outcome, left, pieces) := by
  cases pieces with
  | nil => rw [next, hattempt]
  | cons piece pieces =>
      rw [next, hattempt]
      cases outcome with
      | short => contradiction
      | value => rfl
      | malformed => rfl

end Receiver

/-- The value that a call has returned, if it has returned one. -/
def Received.value? : Received → Option Value
  | .value found => some found
  | _ => none

/-! ## Attempts and reads in turn -/

namespace Stream

open Record

variable {limits : Limits} {readSize : Nat} {stream pause : Stream} {left : Receiver}

/-- The stream with another receiver. -/
def withReceiver (stream : Stream) (receiver : Receiver) : Stream :=
  { stream with receiver }

/-- The stream after one read, which delivers at most `readSize` octets. -/
def pull (readSize : Nat) (stream : Stream) : Stream :=
  { stream with
    receiver := stream.receiver.push (stream.queued.take readSize)
    queued := stream.queued.drop readSize }

/-- In the course of a call on the first stream, the second one is reached where the
call reads on: an attempt has found too few octets, either the first one or one
behind some reads. -/
inductive Pauses (limits : Limits) (readSize : Nat) : Stream → Stream → Prop
  /-- The first attempt finds too few octets. -/
  | now {stream : Stream} {left : Receiver}
      (hattempt : stream.receiver.attempt limits = (.short, left)) :
      Pauses limits readSize stream (stream.withReceiver left)
  /-- It does, there are more, and the call goes on with them. -/
  | later {stream pause : Stream} {left : Receiver}
      (hattempt : stream.receiver.attempt limits = (.short, left))
      (hqueued : stream.queued ≠ [])
      (hlater : Pauses limits readSize ((stream.withReceiver left).pull readSize) pause) :
      Pauses limits readSize stream pause

/-- A call returns a value that has been read before. -/
theorem read_value (hsize : 0 < readSize) {value : Value} {stop : Nat}
    (hattempt : stream.receiver.attempt limits = (.value value stop, left)) :
    stream.read limits readSize = (.value value, stream.withReceiver left) := by
  have hnext := Receiver.next_settled hattempt (by simp) (Bytes.chunks readSize stream.queued)
  simp only [read, hnext, Bytes.flatten_chunks hsize]
  rfl

/-- A call refuses octets that have been read before. -/
theorem read_malformed (hsize : 0 < readSize) {error : DecodeError}
    (hattempt : stream.receiver.attempt limits = (.malformed error, left)) :
    stream.read limits readSize = (.malformed error, stream.withReceiver left) := by
  have hnext := Receiver.next_settled hattempt (by simp) (Bytes.chunks readSize stream.queued)
  simp only [read, hnext, Bytes.flatten_chunks hsize]
  rfl

/-- A call that has too few octets and finds no more waits, or fails at the end of the
stream. -/
theorem read_starved (hattempt : stream.receiver.attempt limits = (.short, left))
    (hqueued : stream.queued = []) :
    stream.read limits readSize =
      (.ofJudgement stream.closed (.short, left.buffer), stream.withReceiver left) := by
  have hnext : stream.receiver.next limits (Bytes.chunks readSize stream.queued) =
      (.short, left, []) := by
    rw [hqueued]
    simp only [Bytes.chunks, List.length_nil, Bytes.chunksWithin, Receiver.next, hattempt]
  simp only [read, hnext, Received.ofJudgement, withReceiver]
  rw [hqueued]
  split
  · rfl
  · split <;> rfl

/-- A call that has too few octets goes on behind the next read. -/
theorem read_pull (hsize : 0 < readSize)
    (hattempt : stream.receiver.attempt limits = (.short, left)) (hqueued : stream.queued ≠ []) :
    stream.read limits readSize =
      ((stream.withReceiver left).pull readSize).read limits readSize := by
  have hnext : stream.receiver.next limits (Bytes.chunks readSize stream.queued) =
      (left.push (stream.queued.take readSize)).next limits
        (Bytes.chunks readSize (stream.queued.drop readSize)) := by
    rw [Bytes.chunks_of_ne_nil hsize hqueued, Receiver.next, hattempt]
  rw [read, hnext]
  rfl

/-- A call that has too few octets goes on from what the attempt has left. -/
theorem read_withReceiver (hsize : 0 < readSize)
    (hattempt : stream.receiver.attempt limits = (.short, left)) :
    (stream.withReceiver left).read limits readSize = stream.read limits readSize := by
  have hagain : (stream.withReceiver left).receiver.attempt limits = (.short, left) :=
    Receiver.attempt_again hattempt
  by_cases hqueued : stream.queued = []
  · rw [read_starved hattempt hqueued]
    exact read_starved hagain hqueued
  · rw [read_pull hsize hattempt hqueued]
    exact read_pull hsize hagain hqueued

/-- A call goes through attempts and reads until one of them settles the matter or
there is nothing left to read; what holds in all these cases holds of it. -/
theorem read_induction (limits : Limits) (hsize : 0 < readSize) {motive : Stream → Prop}
    (hvalue : ∀ stream value stop left,
      stream.receiver.attempt limits = (.value value stop, left) → motive stream)
    (hmalformed : ∀ stream error left,
      stream.receiver.attempt limits = (.malformed error, left) → motive stream)
    (hstarved : ∀ stream left, stream.receiver.attempt limits = (.short, left) →
      stream.queued = [] → motive stream)
    (hpull : ∀ stream left, stream.receiver.attempt limits = (.short, left) →
      stream.queued ≠ [] → motive ((stream.withReceiver left).pull readSize) → motive stream)
    (stream : Stream) : motive stream := by
  -- Every read leaves fewer octets queued.
  generalize hlength : stream.queued.length = length
  induction length using Nat.strongRecOn generalizing stream with
  | ind length ih =>
      cases hattempt : stream.receiver.attempt limits with
      | mk outcome left =>
          cases outcome with
          | value value stop => exact hvalue stream value stop left hattempt
          | malformed error => exact hmalformed stream error left hattempt
          | short =>
              by_cases hqueued : stream.queued = []
              · exact hstarved stream left hattempt hqueued
              · refine hpull stream left hattempt hqueued (ih _ ?_ _ rfl)
                have hsome : 0 < stream.queued.length := List.length_pos_iff.mpr hqueued
                simp only [withReceiver, pull, List.length_drop]
                omega

/-- A new call and one that goes on do the same. -/
theorem ask_eq_read (limits : Limits) (hsize : 0 < readSize) (stream : Stream) (call : Call) :
    stream.ask limits readSize call = stream.read limits readSize := by
  cases call with
  | resume => rfl
  | start =>
      cases hattempt : stream.receiver.attempt limits with
      | mk outcome left =>
          simp only [ask, next, hattempt]
          cases outcome with
          | value value stop => exact (read_value hsize hattempt).symm
          | malformed error => exact (read_malformed hsize hattempt).symm
          | short => exact read_withReceiver hsize hattempt

/-! ## Where a call reads on -/

namespace Pauses

/-- Where a call reads on, it has too few octets, and the threshold is above their
number; the stream holds the same octets as before, though more of them may have
been read. -/
theorem spec (hpauses : stream.Pauses limits readSize pause) (hsound : stream.Sound limits) :
    pause.octets = stream.octets ∧ pause.closed = stream.closed ∧ pause.Sound limits ∧
      pause.receiver.buffer.length < pause.receiver.threshold := by
  induction hpauses with
  | @now stream left hattempt =>
      obtain ⟨hbuffer, hthreshold⟩ := Receiver.attempt_short hattempt
      refine ⟨?_, rfl, Receiver.Sound.of_attempt hsound hattempt, hthreshold⟩
      simp only [octets, withReceiver, hbuffer]
  | @later stream pause left hattempt hqueued hlater ih =>
      obtain ⟨hbuffer, -⟩ := Receiver.attempt_short hattempt
      have hleft := Receiver.Sound.of_attempt hsound hattempt
      obtain ⟨hoctets, hclosed, hpause⟩ := ih (hleft.push _)
      refine ⟨hoctets.trans ?_, hclosed, hpause⟩
      simp only [octets, withReceiver, pull, Receiver.push, hbuffer, List.append_assoc,
        List.take_append_drop]

/-- The octets that have been read where a call reads on are too few. -/
theorem tooShort (hpauses : stream.Pauses limits readSize pause) (hsound : stream.Sound limits) :
    TooShort limits pause.receiver.buffer := by
  obtain ⟨-, -, hpause, hthreshold⟩ := hpauses.spec hsound
  have hshort := Receiver.Sound.tooShort hpause [] (by rwa [List.append_nil])
  rwa [List.append_nil] at hshort

/-- A call does from there on what it does as a whole. -/
theorem read_eq (hpauses : stream.Pauses limits readSize pause) (hsize : 0 < readSize) :
    stream.read limits readSize = pause.read limits readSize := by
  induction hpauses with
  | now hattempt => exact (read_withReceiver hsize hattempt).symm
  | later hattempt hqueued _ ih => rw [read_pull hsize hattempt hqueued, ih]

end Pauses

/-- A call that waits has come to a moment at which it reads on, and has read
everything that has arrived. -/
theorem pauses_of_waiting (hsize : 0 < readSize)
    (hwaiting : (stream.read limits readSize).1 = .waiting) :
    stream.Pauses limits readSize (stream.read limits readSize).2 ∧
      (stream.read limits readSize).2.queued = [] := by
  induction stream using read_induction limits hsize with
  | hvalue stream value stop left hattempt =>
      rw [read_value hsize hattempt] at hwaiting
      cases hwaiting
  | hmalformed stream error left hattempt =>
      rw [read_malformed hsize hattempt] at hwaiting
      cases hwaiting
  | hstarved stream left hattempt hqueued =>
      rw [read_starved hattempt hqueued]
      exact ⟨.now hattempt, hqueued⟩
  | hpull stream left hattempt hqueued ih =>
      rw [read_pull hsize hattempt hqueued] at hwaiting ⊢
      obtain ⟨hpauses, hnone⟩ := ih hwaiting
      exact ⟨.later hattempt hqueued hpauses, hnone⟩

/-! ## Prompt calls -/

/-- A call returns what the octets are decided to be, takes those of a value off them,
and leaves the others where they are. -/
structure Settles (limits : Limits) (octets queued : Bytes) (outcome : Received × Stream) :
    Prop where
  value : ∀ value stop, decode limits octets 0 = .ok (value, stop) →
    outcome.1 = .value value ∧ outcome.2.receiver.buffer = octets.drop stop
  malformed : ∀ error, decode limits octets 0 = .error error →
    outcome.1 = .malformed error ∧ outcome.2.receiver.buffer = octets
  queued : outcome.2.queued = queued

/-- What a call does on a stream on which the octets `data` have arrived and earlier
calls have returned `results`. -/
structure Prompt (limits : Limits) (readSize : Nat) (data : Bytes) (results : List Received)
    (stream : Stream) (call : Call) : Prop where
  /-- Octets that suffice are not added to. -/
  ready : ¬ TooShort limits stream.receiver.buffer →
    Settles limits stream.receiver.buffer stream.queued (stream.ask limits readSize call)
  /-- Where it reads on, all values of the octets read so far have been returned, and
  those behind them are the ones it has. -/
  pending : ∀ pause, stream.Pauses limits readSize pause → ∃ received,
    data = received ++ pause.queued ∧
    results.filterMap Received.value? = (decodeAll limits received).values.map Prod.fst ∧
    pause.receiver.buffer = received.drop (decodeAll limits received).stop
  /-- Where it reads on, these are too few. -/
  short : ∀ pause, stream.Pauses limits readSize pause → TooShort limits pause.receiver.buffer
  /-- Where it reads on, the threshold is above their number, and not above the length
  at which whatever they continue with is decided. -/
  threshold : ∀ pause, stream.Pauses limits readSize pause →
    pause.receiver.buffer.length < pause.receiver.threshold ∧
    ∀ more, ¬ TooShort limits (pause.receiver.buffer ++ more) →
      pause.receiver.threshold ≤ decidedAt limits (pause.receiver.buffer ++ more)
  /-- The read that delivers what decides them is the last one. -/
  decides : ∀ pause, stream.Pauses limits readSize pause →
    ¬ TooShort limits (pause.receiver.buffer ++ pause.queued.take readSize) →
    Settles limits (pause.receiver.buffer ++ pause.queued.take readSize)
      (pause.queued.drop readSize) (stream.ask limits readSize call)
  /-- It waits only there, when all that has arrived has been read. -/
  suspended : (stream.ask limits readSize call).1 = .waiting →
    stream.Pauses limits readSize (stream.ask limits readSize call).2 ∧
      (stream.ask limits readSize call).2.queued = []

/-- A call on octets that are decided settles the matter without a read. -/
theorem read_settles (hsize : 0 < readSize) (hsound : stream.Sound limits)
    (hdecided : ¬ TooShort limits stream.receiver.buffer) :
    Settles limits stream.receiver.buffer stream.queued (stream.read limits readSize) := by
  cases hdecode : decode limits stream.receiver.buffer 0 with
  | ok found =>
      obtain ⟨left, hattempt, hbuffer⟩ := Receiver.Sound.attempt_value hsound hdecode
      rw [read_value hsize hattempt]
      refine ⟨fun value stop hvalue => ?_, fun error herror => ?_, rfl⟩
      · rw [hdecode] at hvalue
        cases hvalue
        exact ⟨rfl, hbuffer⟩
      · rw [hdecode] at herror
        cases herror
  | error error =>
      have hfinal : ¬ error.EndsEarly := fun hearly => hdecided ⟨error, hdecode, hearly⟩
      obtain ⟨left, hattempt, hbuffer⟩ := Receiver.Sound.attempt_malformed hsound hdecode hfinal
      rw [read_malformed hsize hattempt]
      refine ⟨fun value stop hvalue => ?_, fun other herror => ?_, rfl⟩
      · rw [hdecode] at hvalue
        cases hvalue
      · rw [hdecode] at herror
        cases herror
        exact ⟨rfl, hbuffer⟩

/-- A read that decides the octets is the last one of a call. -/
theorem Pauses.settles (hpauses : stream.Pauses limits readSize pause) (hsize : 0 < readSize)
    (hsound : stream.Sound limits)
    (hdecided : ¬ TooShort limits (pause.receiver.buffer ++ pause.queued.take readSize)) :
    Settles limits (pause.receiver.buffer ++ pause.queued.take readSize)
      (pause.queued.drop readSize) (stream.read limits readSize) := by
  obtain ⟨-, -, hpause, hthreshold⟩ := hpauses.spec hsound
  have hqueued : pause.queued ≠ [] := by
    intro hnone
    rw [hnone, List.take_nil, List.append_nil] at hdecided
    exact hdecided (hpauses.tooShort hsound)
  rw [hpauses.read_eq hsize, read_pull hsize (Receiver.attempt_of_lt hthreshold) hqueued]
  have hpulled : ((pause.withReceiver pause.receiver).pull readSize).Sound limits :=
    Receiver.Sound.push hpause _
  exact read_settles hsize hpulled hdecided

/-- The last answer of a stream is no value. -/
theorem Exhausted.value_eq_none {closed : Bool} {octets : Bytes} {result : Received}
    (hlast : Exhausted limits closed octets result) : result.value? = none := by
  cases hlast <;> rfl

/-- Where the octets that have been read are too few, the values before them are all
those of the octets received so far, and have been returned. -/
theorem Progress.received {data : Bytes} {taken : List Record} {results : List Received}
    (hprogress : Progress limits data taken results stream)
    (hshort : TooShort limits stream.receiver.buffer) :
    ∃ received, data = received ++ stream.queued ∧
      results.filterMap Received.value? = (decodeAll limits received).values.map Prod.fst ∧
      stream.receiver.buffer = received.drop (decodeAll limits received).stop := by
  obtain ⟨error, hdecode, -⟩ := hshort
  have hsplits : Splits limits (joined taken ++ stream.receiver.buffer) taken
      stream.receiver.buffer := ⟨rfl, hprogress.holds, error, decode_eq_error.mp hdecode⟩
  obtain ⟨repeated, hresults, hrepeated⟩ := hprogress.returned
  have hnone : repeated.filterMap Received.value? = [] :=
    List.filterMap_eq_nil_iff.mpr fun result hmem => (hrepeated result hmem).value_eq_none
  refine ⟨joined taken ++ stream.receiver.buffer, ?_, ?_, hsplits.drop_stop.symm⟩
  · rw [hprogress.partition, octets, List.append_assoc]
  · rw [hsplits.values_decodeAll, hresults, List.filterMap_append, hnone, List.append_nil,
      List.filterMap_map]
    exact congrFun List.filterMap_eq_map taken

/-- A call on a stream that has made progress is prompt. -/
theorem Progress.prompt {data : Bytes} {taken : List Record} {results : List Received}
    (hprogress : Progress limits data taken results stream) (hsize : 0 < readSize) (call : Call) :
    Prompt limits readSize data results stream call := by
  have hsound := hprogress.sound
  have hask := ask_eq_read limits hsize stream call
  refine ⟨?_, fun pause hpauses => ?_, fun pause hpauses => hpauses.tooShort hsound,
    fun pause hpauses => ?_, fun pause hpauses => ?_, ?_⟩
  · rw [hask]
    exact read_settles hsize hsound
  · obtain ⟨hoctets, hclosed, hpause, -⟩ := hpauses.spec hsound
    exact (hprogress.keep hpause hoctets hclosed).received (hpauses.tooShort hsound)
  · obtain ⟨-, -, hpause, hthreshold⟩ := hpauses.spec hsound
    exact ⟨hthreshold, fun more => Receiver.Sound.threshold_le hpause (hpauses.tooShort hsound)⟩
  · rw [hask]
    exact hpauses.settles hsize hsound
  · rw [hask]
    exact pauses_of_waiting hsize

/-- In whatever pieces octets have arrived at a stream, and however it has been asked
before and after it was closed, a call on it is prompt: it reads on only while the
octets it has are too few, attempts again at a length at which they may be decided,
and returns with the read that decides them. -/
theorem run_prompt (limits : Limits) {readSize : Nat} (hsize : 0 < readSize) (events : List Event)
    (calls : List Call) (call : Call) :
    let opened := empty.run limits readSize events
    let closed := opened.2.close.run limits readSize (calls.map .call)
    Prompt limits readSize (arrivals events) opened.1 opened.2 call ∧
      Prompt limits readSize (arrivals events) (opened.1 ++ closed.1) closed.2 call := by
  intro opened closed
  have hempty : Progress limits [] [] [] empty := .empty
  obtain ⟨taken, hopened⟩ := hempty.run rfl hsize events
  obtain ⟨-, all, hclosed⟩ := hopened.close.run_closed rfl hsize calls
  exact ⟨hopened.prompt hsize call, hclosed.prompt hsize call⟩

/-- A call that has been given the length of a bulk string and the first octet of it,
for instance, waits with the threshold at the end of the string. -/
theorem run_prompt_bulk :
    let events : List Event := [.call .start, .arrive (Bytes.ofString "$3\r\na")]
    let opened := empty.run .standard 4 events
    let closed := opened.2.close.run .standard 4 ([].map .call)
    let outcome := opened.2.ask .standard 4 .resume
    0 < 4 ∧ outcome.1 = .waiting ∧ outcome.2.receiver = ⟨Bytes.ofString "$3\r\na", 9, 1⟩ ∧
      TooShort .standard outcome.2.receiver.buffer ∧
      Prompt .standard 4 (arrivals events) opened.1 opened.2 .resume ∧
      Prompt .standard 4 (arrivals events) (opened.1 ++ closed.1) closed.2 .resume := by
  intro events opened closed outcome
  have hsize : 0 < 4 := by decide
  have hwaiting : outcome.1 = .waiting := by decide
  obtain ⟨hopened, hclosed⟩ := run_prompt .standard hsize events [] .resume
  have hpauses := (hopened.suspended hwaiting).1
  exact ⟨hsize, hwaiting, by decide, hopened.short _ hpauses, hopened, hclosed⟩

end Stream

end DurableStore
