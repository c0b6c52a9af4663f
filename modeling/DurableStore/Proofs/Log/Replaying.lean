import DurableStore.Log.Replay
import DurableStore.Proofs.Requests
import DurableStore.Proofs.Wire.Receiving

/-!
# What a replay amounts to

Replay reads the log piece by piece, keeps an incomplete record until the next
piece has arrived, and skips what is no known command.  In one pass over the
whole content it runs the known commands among the records in order, and judges
what the last record leaves over.  The pieces do not matter.

Main results:

- Theorem `Replay.run_eq`: a replay in pieces is a fold over the records of the
  content.
- Theorem `Replay.follower_spec`: the search for a complete request inside an
  incomplete record finds one if there is one.
- Theorem `Replay.ofChunks_onePass`: replaying the pieces of a content has the
  outcome of one pass over it.
-/

namespace DurableStore

namespace Replay

/-! ## Records -/

/-- Run records one after the other. -/
def steps (replay : Replay) (records : List Record) : Replay :=
  (records.map Record.sized).foldl step replay

/-- A record runs its command, if that is known, and moves the offset. -/
theorem step_spec (replay : Replay) (record : Record) :
    (replay.step record.sized).keyspace =
        replay.keyspace.dispatchAll (Command.known? record.value).toList ∧
      (replay.step record.sized).count =
        replay.count + (Command.known? record.value).toList.length ∧
      (replay.step record.sized).offset = replay.offset + record.octets.length ∧
      (replay.step record.sized).failure? = replay.failure? := by
  unfold step Command.known? Record.sized
  cases Command.parse record.value with
  | error error => exact ⟨rfl, rfl, rfl, rfl⟩
  | ok command =>
      cases hverb : command.verb? with
      | none =>
          refine ⟨?_, ?_, ?_, ?_⟩ <;> simp only [hverb] <;> rfl
      | some verb =>
          have hdispatch : replay.keyspace.dispatch command.name command.args =
              replay.keyspace.run verb command.args := by
            simp only [Keyspace.dispatch, show Verb.ofName? command.name = some verb from hverb]
          refine ⟨?_, ?_, ?_, ?_⟩ <;> simp only [hverb]
          · exact (congrArg Prod.snd hdispatch).symm
          · rfl

/-- Records run the known commands among their values in order, and move the
offset behind the last of them. -/
theorem steps_spec (replay : Replay) (records : List Record) :
    (replay.steps records).keyspace =
        replay.keyspace.dispatchAll (Command.knownAmong (records.map Record.value)) ∧
      (replay.steps records).count =
        replay.count + (Command.knownAmong (records.map Record.value)).length ∧
      (replay.steps records).offset = replay.offset + (Record.joined records).length ∧
      (replay.steps records).failure? = replay.failure? := by
  induction records generalizing replay with
  | nil => exact ⟨rfl, rfl, rfl, rfl⟩
  | cons record records ih =>
      rcases replay.step_spec record with ⟨hkeyspace, hcount, hoffset, hfailure⟩
      rcases ih (replay.step record.sized) with ⟨hkeyspaces, hcounts, hoffsets, hfailures⟩
      have hsteps : replay.steps (record :: records) = (replay.step record.sized).steps records :=
        rfl
      rw [hsteps, List.map_cons, Command.knownAmong_cons]
      refine ⟨?_, ?_, ?_, by rw [hfailures, hfailure]⟩
      · rw [hkeyspaces, hkeyspace, Keyspace.dispatchAll_append]
      · rw [hcounts, hcount, List.length_append, Nat.add_assoc]
      · rw [hoffsets, hoffset, Record.joined_cons, List.length_append, Nat.add_assoc]

/-- Running records goes on from what the records before them have left. -/
theorem steps_append (replay : Replay) (records later : List Record) :
    replay.steps (records ++ later) = (replay.steps records).steps later := by
  unfold steps
  rw [List.map_append, List.foldl_append]

/-! ## Pieces -/

/-- What a replay comes to if the octets behind the last record are `rest`. -/
def conclude (limits : Limits) (path : String) (rest : Bytes) (replay : Replay) : Replay :=
  match obstacle? limits rest with
  | some error => replay.fail path error
  | none => replay.judgeTail limits path rest

variable {limits : Limits} {path : String}

/-- A replay in pieces is a fold over the records of the content. -/
theorem run_eq {pieces : List Bytes} {receiver : Receiver} {replay : Replay}
    {records : List Record} {rest : Bytes} (hsound : receiver.Sound limits)
    (hsplits : Splits limits (receiver.buffer ++ pieces.flatten) records rest) :
    run limits path pieces receiver replay = conclude limits path rest (replay.steps records) := by
  induction pieces generalizing receiver replay records with
  | nil =>
      rw [List.flatten_nil, List.append_nil] at hsplits
      have hrearmed : receiver.rearm.buffer = receiver.buffer := rfl
      rw [← hrearmed] at hsplits
      rcases Receiver.sound_rearm.drain hsplits with ⟨left, hdrain, hbuffer, -⟩
      rw [run, hdrain, conclude, hbuffer]
      rfl
  | cons piece pieces ih =>
      rcases exists_splits limits (receiver.buffer ++ piece) with ⟨first, middle, hfirst⟩
      rcases (hsound.push piece).drain hfirst with ⟨left, hdrain, hbuffer, hleft⟩
      rw [List.flatten_cons, ← List.append_assoc] at hsplits
      cases hobstacle : obstacle? limits middle with
      | some error =>
          -- What follows does not remove the obstacle.
          rcases hsplits.unique (hfirst.extend_of_obstacle hobstacle pieces.flatten) with ⟨rfl, rfl⟩
          rw [run, hdrain, conclude, obstacle_append hobstacle, hobstacle]
          rfl
      | none =>
          rcases exists_splits limits (middle ++ pieces.flatten) with ⟨later, last, hlater⟩
          rcases hsplits.unique (hfirst.extend hlater) with ⟨rfl, rfl⟩
          rw [← hbuffer] at hlater
          rw [run, hdrain, hobstacle, steps_append]
          exact ih hleft hlater

/-- The replay of a content does not depend on its pieces. -/
theorem ofChunks_eq {pieces : List Bytes} {records : List Record} {rest : Bytes}
    (hsplits : Splits limits pieces.flatten records rest) (keyspace : Keyspace) :
    ofChunks limits path pieces keyspace =
      conclude limits path rest ((start keyspace).steps records) :=
  run_eq Receiver.sound_empty hsplits

/-! ## Incomplete records -/

/-- Behind a line terminator, at the given position, octets go on with a
complete request. -/
def RequestInside (limits : Limits) (tail : Bytes) (position : Nat) : Prop :=
  ∃ before behind, tail = before ++ Bytes.crlf ++ behind ∧
    position = (before ++ Bytes.crlf).length ∧
    ∃ value next command, decode limits tail position = .ok (value, next) ∧
      Command.parse value = .ok command

/-- Octets begin with a complete request if a value is read that is a
request. -/
theorem beginsWithRequest_iff {cursor : Cursor} :
    beginsWithRequest limits cursor = true ↔
      ∃ value next command, readValue limits limits.depth cursor = .ok (value, next) ∧
        Command.parse value = .ok command := by
  unfold beginsWithRequest
  cases readValue limits limits.depth cursor with
  | error error => simp
  | ok outcome =>
      rcases outcome with ⟨value, next⟩
      cases hparse : Command.parse value <;> simp [hparse]

/-- Whether octets begin with a complete request does not depend on where they
stand. -/
theorem beginsWithRequest_move (offset : Nat) (octets : Bytes) :
    beginsWithRequest limits ⟨offset, octets⟩ = beginsWithRequest limits ⟨0, octets⟩ := by
  unfold beginsWithRequest
  rw [readValue_moved]
  cases readValue limits limits.depth ⟨0, octets⟩ <;> rfl

/-- The search for a complete request finds the first one. -/
theorem followerFrom_eq_some {start found : Nat} {octets : Bytes}
    (hfound : followerFrom? limits start octets = some found) :
    ∃ before behind, octets = before ++ Bytes.crlf ++ behind ∧
      found = start + (before ++ Bytes.crlf).length ∧
      beginsWithRequest limits ⟨found, behind⟩ = true := by
  induction octets generalizing start with
  | nil => cases hfound
  | cons octet rest ih =>
      have hlater : followerFrom? limits (start + 1) rest = some found →
          ∃ before behind, octet :: rest = before ++ Bytes.crlf ++ behind ∧
            found = start + (before ++ Bytes.crlf).length ∧
            beginsWithRequest limits ⟨found, behind⟩ = true := by
        intro hrest
        rcases ih hrest with ⟨before, behind, rfl, rfl, hbegins⟩
        refine ⟨octet :: before, behind, rfl, ?_, hbegins⟩
        rw [List.cons_append, List.length_cons]
        omega
      unfold followerFrom? at hfound
      split at hfound
      · rename_i more hoctets
        split at hfound
        · rename_i hbegins
          cases hfound
          exact ⟨[], 0x2A :: more, hoctets, rfl, hbegins⟩
        · exact hlater hfound
      · exact hlater hfound

/-- The search for a complete request does not miss one. -/
theorem followerFrom_isSome {start : Nat} {before behind : Bytes}
    (hbegins : beginsWithRequest limits ⟨0, behind⟩ = true) :
    (followerFrom? limits start (before ++ Bytes.crlf ++ behind)).isSome = true := by
  induction before generalizing start with
  | nil =>
      rcases beginsWithRequest_iff.mp hbegins with ⟨value, next, command, hread, hparse⟩
      rcases head_of_read_array hread (Command.kind_of_parse hparse) with ⟨more, rfl⟩
      have hmoved : beginsWithRequest limits ⟨start + 2, 0x2A :: more⟩ = true := by
        rw [beginsWithRequest_move, hbegins]
      simp only [Bytes.crlf, List.nil_append, List.cons_append, followerFrom?, hmoved, if_true,
        Option.isSome_some]
  | cons octet before ih =>
      rw [List.cons_append, List.cons_append]
      unfold followerFrom?
      split
      · split
        · rfl
        · exact ih
      · exact ih

/-- A position at which the search finds a complete request is one. -/
theorem follower_eq_some {tail : Bytes} {position : Nat}
    (hfound : follower? limits tail = some position) : RequestInside limits tail position := by
  rcases followerFrom_eq_some hfound with ⟨before, behind, hsplit, hposition, hbegins⟩
  rw [Nat.zero_add] at hposition
  rcases beginsWithRequest_iff.mp hbegins with ⟨value, next, command, hread, hparse⟩
  refine ⟨before, behind, hsplit, hposition, value, next.offset, command, ?_, hparse⟩
  refine decode_eq_ok.mpr ⟨next, ?_, rfl⟩
  rw [hsplit, hposition, List.drop_left, ← hposition, hread]

/-- The search for a complete request inside an incomplete record finds nothing
exactly if there is none. -/
theorem follower_eq_none {tail : Bytes} :
    follower? limits tail = none ↔ ∀ position, ¬ RequestInside limits tail position := by
  constructor
  · rintro hnone position ⟨before, behind, hsplit, hposition, value, next, command, hread, hparse⟩
    rcases decode_eq_ok.mp hread with ⟨cursor, hvalue, -⟩
    rw [hsplit, hposition, List.drop_left] at hvalue
    have hbegins : beginsWithRequest limits ⟨(before ++ Bytes.crlf).length, behind⟩ = true :=
      beginsWithRequest_iff.mpr ⟨value, cursor, command, hvalue, hparse⟩
    rw [beginsWithRequest_move] at hbegins
    have hsome : (followerFrom? limits 0 (before ++ Bytes.crlf ++ behind)).isSome = true :=
      followerFrom_isSome hbegins
    unfold follower? at hnone
    rw [← hsplit, hnone] at hsome
    cases hsome
  · intro hno
    cases hfound : follower? limits tail with
    | none => rfl
    | some position => exact absurd (follower_eq_some hfound) (hno position)

/-! ## One pass -/

/-- The outcome of a replay is that of one pass over the content, which decodes
the values one after the other. -/
structure OnePass (limits : Limits) (path : String) (content : Bytes) (keyspace : Keyspace)
    (replay : Replay) : Prop where
  /-- The known commands among the values have been run, in order and each of
  them once, and nothing else has. -/
  keyspace_eq : replay.keyspace =
    keyspace.dispatchAll (Command.knownAmong ((decodeAll limits content).values.map Prod.fst))
  /-- They have been counted. -/
  count_eq : replay.count =
    (Command.knownAmong ((decodeAll limits content).values.map Prod.fst)).length
  /-- The replay stops behind the last value. -/
  offset_eq : replay.offset = (decodeAll limits content).stop
  /-- If that is the end of the content, there is no failure. -/
  whole : (decodeAll limits content).stop = content.length → replay.failure? = none
  /-- Otherwise a malformed value makes the replay fail. -/
  corrupt : ∀ error, (decodeAll limits content).error? = some error → error.isShort = false →
    ∃ cause, replay.failure? = some (.corrupt path (decodeAll limits content).stop cause) ∧
      cause.shift (decodeAll limits content).stop = error
  /-- So does an incomplete value inside which a complete request begins. -/
  overrun : ∀ error, (decodeAll limits content).error? = some error → error.isShort = true →
    (∃ position, RequestInside limits (content.drop (decodeAll limits content).stop) position) →
    ∃ position, RequestInside limits (content.drop (decodeAll limits content).stop) position ∧
      replay.failure? = some (.overrun path (decodeAll limits content).stop
        ((decodeAll limits content).stop + position))
  /-- Any other incomplete value ends the replay without a failure. -/
  truncated : ∀ error, (decodeAll limits content).error? = some error → error.isShort = true →
    (∀ position,
      ¬ RequestInside limits (content.drop (decodeAll limits content).stop) position) →
    replay.failure? = none
  /-- There is no other case. -/
  error_iff : (decodeAll limits content).error? = none ↔
    (decodeAll limits content).stop = content.length

/-- Nothing is left to be judged at the end of the content. -/
theorem conclude_nil (replay : Replay) : conclude limits path [] replay = replay := by
  rw [conclude, obstacle_eq_none (readValue_nil limits limits.depth 0) rfl]
  rfl

/-- An obstacle makes the replay fail. -/
theorem conclude_malformed {rest : Bytes} {error : DecodeError}
    (hobstacle : obstacle? limits rest = some error) (replay : Replay) :
    conclude limits path rest replay = replay.fail path error := by
  rw [conclude, hobstacle]

/-- An incomplete record makes the replay fail if a complete request begins
inside it. -/
theorem conclude_short (path : String) {rest : Bytes} {error : DecodeError}
    (hread : readValue limits limits.depth ⟨0, rest⟩ = .error error)
    (hshort : error.isShort = true) (replay : Replay) :
    (conclude limits path rest replay).failure? =
      ((follower? limits rest).map fun position =>
        .overrun path replay.offset (replay.offset + position)).or replay.failure? := by
  rw [conclude, obstacle_eq_none hread hshort, judgeTail]
  cases rest with
  | nil => rfl
  | cons octet octets =>
      rw [List.isEmpty_cons, if_neg Bool.false_ne_true]
      cases follower? limits (octet :: octets) <;> rfl

/-- What is left over concerns the failure and the reports alone. -/
theorem conclude_frame (limits : Limits) (path : String) (rest : Bytes) (replay : Replay) :
    (conclude limits path rest replay).keyspace = replay.keyspace ∧
      (conclude limits path rest replay).count = replay.count ∧
      (conclude limits path rest replay).offset = replay.offset := by
  unfold conclude judgeTail
  split
  · exact ⟨rfl, rfl, rfl⟩
  · split
    · exact ⟨rfl, rfl, rfl⟩
    · split <;> exact ⟨rfl, rfl, rfl⟩

/-- Folding over the records of a content and judging the rest is one pass. -/
theorem conclude_onePass {content rest : Bytes} {records : List Record}
    (hsplits : Splits limits content records rest) (keyspace : Keyspace) :
    OnePass limits path content keyspace
      (conclude limits path rest ((start keyspace).steps records)) := by
  rcases (start keyspace).steps_spec records with ⟨hkeyspace, hcount, hoffset, hfailure⟩
  obtain ⟨hkeyspace', hcount', hoffset'⟩ :=
    conclude_frame limits path rest ((start keyspace).steps records)
  rcases hsplits.stops with ⟨cause, hread⟩
  have hstop := hsplits.stop_decodeAll
  have hstart : ((start keyspace).steps records).offset = (decodeAll limits content).stop := by
    rw [hoffset, hstop]
    exact Nat.zero_add _
  have hwhole := hsplits.stop_eq_length
  constructor
  case keyspace_eq =>
    rw [hkeyspace', hkeyspace, hsplits.values_decodeAll]
    rfl
  case count_eq =>
    rw [hcount', hcount, hsplits.values_decodeAll]
    exact Nat.zero_add _
  case offset_eq => rw [hoffset', hstart]
  case whole =>
    intro hend
    rw [hwhole.mp hend, conclude_nil, hfailure]
    rfl
  case corrupt =>
    intro error hfound hfinal
    rcases hsplits.of_error_decodeAll hread hfound with ⟨hrest, rfl⟩
    rw [DecodeError.isShort_shift] at hfinal
    refine ⟨cause, ?_, rfl⟩
    rw [conclude_malformed (obstacle_eq_some.mpr ⟨hread, hfinal⟩), fail, hstart]
  case overrun =>
    intro error hfound hshort hinside
    rcases hsplits.of_error_decodeAll hread hfound with ⟨hrest, rfl⟩
    rw [DecodeError.isShort_shift] at hshort
    rw [hsplits.drop_stop] at hinside ⊢
    cases hfollower : follower? limits rest with
    | none =>
        rcases hinside with ⟨position, hposition⟩
        exact absurd hposition (follower_eq_none.mp hfollower position)
    | some position =>
        refine ⟨position, follower_eq_some hfollower, ?_⟩
        rw [conclude_short path hread hshort, hfollower, hstart]
        rfl
  case truncated =>
    intro error hfound hshort houtside
    rcases hsplits.of_error_decodeAll hread hfound with ⟨hrest, rfl⟩
    rw [DecodeError.isShort_shift] at hshort
    rw [hsplits.drop_stop] at houtside
    rw [conclude_short path hread hshort, follower_eq_none.mpr houtside, hfailure]
    rfl
  case error_iff =>
    rw [hwhole, hsplits.error_decodeAll hread]
    by_cases hrest : rest = [] <;> simp [hrest]

/-- Replaying the pieces of a content has the outcome of one pass over it, and
every size of the pieces has the same outcome. -/
theorem ofChunks_onePass (limits : Limits) (path : String) (content : Bytes) (keyspace : Keyspace)
    {size : Nat} (hsize : 1 ≤ size) :
    OnePass limits path content keyspace
        (ofChunks limits path (Bytes.chunks size content) keyspace) ∧
      ∀ other, 1 ≤ other → ofChunks limits path (Bytes.chunks other content) keyspace =
        ofChunks limits path (Bytes.chunks size content) keyspace := by
  rcases exists_splits limits content with ⟨records, rest, hsplits⟩
  have hpieces : ∀ size, 1 ≤ size → ofChunks limits path (Bytes.chunks size content) keyspace =
      conclude limits path rest ((start keyspace).steps records) := by
    intro size hsize
    rw [← Bytes.flatten_chunks hsize content] at hsplits
    exact ofChunks_eq hsplits keyspace
  refine ⟨?_, fun other hother => ?_⟩
  · rw [hpieces size hsize]
    exact conclude_onePass hsplits keyspace
  · rw [hpieces size hsize, hpieces other hother]

/-- Reading one octet at a time, for instance, a ping and an incomplete record
are replayed in one pass. -/
theorem ofChunks_onePass_single :
    OnePass .standard "log.aof" (Bytes.ofString "*1\r\n$4\r\nPING\r\n*2") .empty
        (ofChunks .standard "log.aof"
          (Bytes.chunks 1 (Bytes.ofString "*1\r\n$4\r\nPING\r\n*2")) .empty) ∧
      ∀ other, 1 ≤ other →
        ofChunks .standard "log.aof"
            (Bytes.chunks other (Bytes.ofString "*1\r\n$4\r\nPING\r\n*2")) .empty =
          ofChunks .standard "log.aof"
            (Bytes.chunks 1 (Bytes.ofString "*1\r\n$4\r\nPING\r\n*2")) .empty :=
  ofChunks_onePass .standard "log.aof" _ .empty (Nat.le_refl 1)

end Replay

end DurableStore
