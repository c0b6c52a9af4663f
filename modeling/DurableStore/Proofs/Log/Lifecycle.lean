import DurableStore.Proofs.Log.Buffering
import DurableStore.Proofs.Log.Replaying

/-!
# The life of a log

Opening a log runs the commands of its records and cuts off what is left over,
or fails and leaves the file alone.  An open log whose writes succeed takes
every value that has a written form, and its octets wait for the next flush.

Main results:

- Theorems `Log.opening_keyspace`, `Log.opening_ok` and `Log.opening_error`:
  what opening leads to, in terms of the division of the content.
- Theorem `Log.records_of_opening_ok`: a log that has been opened stands on
  whole records.
- Theorem `Log.appends`: how an attempt to append a value can end.
- Theorem `Log.appendAll_ok`: what appending adds to the octets that wait.
-/

namespace DurableStore

namespace Replay

variable {limits : Limits} {content rest : Bytes} {records : List Record}

/-- The replay of a content folds over its records. -/
theorem ofContent_eq (hsplits : Splits limits content records rest) (path : String)
    (keyspace : Keyspace) :
    ofContent limits path content keyspace =
      conclude limits path rest ((start keyspace).steps records) := by
  have hpieces : (Bytes.chunks chunkSize content).flatten = content :=
    Bytes.flatten_chunks (by decide) content
  rw [← hpieces] at hsplits
  exact ofChunks_eq hsplits keyspace

/-- A content that consists of whole records is replayed without a failure. -/
theorem ofContent_whole (hsplits : Splits limits content records []) (path : String)
    (keyspace : Keyspace) :
    (ofContent limits path content keyspace).failure? = none ∧
      (ofContent limits path content keyspace).keyspace =
        keyspace.dispatchAll (Command.knownAmong (records.map Record.value)) ∧
      (ofContent limits path content keyspace).count =
        (Command.knownAmong (records.map Record.value)).length := by
  rcases (start keyspace).steps_spec records with ⟨hkeyspace, hcount, -, hfailure⟩
  rw [ofContent_eq hsplits, conclude_nil, hkeyspace, hcount, hfailure]
  exact ⟨rfl, rfl, Nat.zero_add _⟩

end Replay

/-- Whole records one behind the other divide into themselves. -/
theorem splits_joined {limits : Limits} {records : List Record}
    (hholds : ∀ record ∈ records, record.Holds limits) :
    Splits limits (Record.joined records) records [] := by
  simpa using (splits_nil limits).prepend hholds

namespace Log

/-! ## Opening -/

section Opening

variable {log : Log} {volume created : Volume} {keyspace : Keyspace} {content rest : Bytes}
variable {records : List Record}

/-- Opening a log replays what the file at its path holds. -/
theorem replay_created (hplace : created.place = .file content)
    (hsplits : Splits log.limits content records rest) :
    log.replay created keyspace =
      Replay.conclude log.limits log.path rest ((Replay.start keyspace).steps records) := by
  rw [Log.replay, Volume.read, hplace]
  exact Replay.ofContent_eq hsplits log.path keyspace

/-- Opening a log runs the known commands of its records, whether or not it
succeeds. -/
theorem opening_keyspace (hcreate : volume.create = .ok created)
    (hplace : created.place = .file content)
    (hsplits : Splits log.limits content records rest) :
    (log.opening volume keyspace).keyspace =
      keyspace.dispatchAll (Command.knownAmong (records.map Record.value)) := by
  have hreplay : log.replay created keyspace = _ := replay_created hplace hsplits
  have hframe := Replay.conclude_frame log.limits log.path rest
    ((Replay.start keyspace).steps records)
  rcases (Replay.start keyspace).steps_spec records with ⟨hkeyspace, -⟩
  rw [Log.opening, hcreate]
  simp only [hreplay]
  split <;> exact hframe.1.trans hkeyspace

/-- Opening a log fails if its replay does, and leaves the file alone. -/
theorem opening_error (hcreate : volume.create = .ok created)
    (hplace : created.place = .file content)
    (hsplits : Splits log.limits content records rest) {error : LogError}
    (hfailure : (Replay.conclude log.limits log.path rest
      ((Replay.start keyspace).steps records)).failure? = some error) :
    (log.opening volume keyspace).result = .error error ∧
      (log.opening volume keyspace).volume = created := by
  have hreplay : log.replay created keyspace = _ := replay_created hplace hsplits
  rw [Log.opening, hcreate]
  simp only [hreplay, hfailure]
  exact ⟨trivial, trivial⟩

/-- Opening a log succeeds if its replay does, and leaves the whole records in
the file. -/
theorem opening_ok (hcreate : volume.create = .ok created)
    (hplace : created.place = .file content)
    (hsplits : Splits log.limits content records rest)
    (hfailure : (Replay.conclude log.limits log.path rest
      ((Replay.start keyspace).steps records)).failure? = none) :
    (log.opening volume keyspace).result = .ok
        { log with
          handle? := some .fresh
          halfClosed := false
          replayed := (Command.knownAmong (records.map Record.value)).length
          appended := 0 } ∧
      (log.opening volume keyspace).volume =
        { created with place := .file (Record.joined records) } := by
  have hreplay : log.replay created keyspace = _ := replay_created hplace hsplits
  obtain ⟨-, hcount, hoffset⟩ := Replay.conclude_frame log.limits log.path rest
    ((Replay.start keyspace).steps records)
  rcases (Replay.start keyspace).steps_spec records with ⟨-, hcount', hoffset', -⟩
  rw [Log.opening, hcreate]
  simp only [hreplay, hfailure]
  refine ⟨?_, ?_⟩
  · rw [hcount, hcount']
    simp [Replay.start]
  · rw [hoffset, hoffset', Volume.truncate, hplace, hsplits.partition]
    simp [Replay.start]

/-- A log that has been opened stands on whole records, whose known commands
have been run and counted. -/
theorem records_of_opening_ok {opened : Log}
    (hok : (log.opening volume keyspace).result = .ok opened) :
    ∃ records : List Record, (∀ record ∈ records, record.Holds log.limits) ∧
      (log.opening volume keyspace).volume.place = .file (Record.joined records) ∧
      (log.opening volume keyspace).keyspace =
        keyspace.dispatchAll (Command.knownAmong (records.map Record.value)) ∧
      opened =
        { log with
          handle? := some .fresh
          halfClosed := false
          replayed := (Command.knownAmong (records.map Record.value)).length
          appended := 0 } := by
  cases hcreate : volume.create with
  | error reason =>
      rw [Log.opening, hcreate] at hok
      cases hok
  | ok created =>
      cases hread : created.read with
      | error reason =>
          rw [Log.opening, hcreate] at hok
          simp only [Log.replay, hread] at hok
          cases hok
      | ok content =>
          have hplace : created.place = .file content := by
            unfold Volume.read at hread
            split at hread
            · rename_i found hfile
              cases hread
              exact hfile
            all_goals cases hread
          rcases exists_splits log.limits content with ⟨records, rest, hsplits⟩
          cases hfailure : (Replay.conclude log.limits log.path rest
              ((Replay.start keyspace).steps records)).failure? with
          | some error =>
              rw [(opening_error hcreate hplace hsplits hfailure).1] at hok
              cases hok
          | none =>
              rcases opening_ok hcreate hplace hsplits hfailure with ⟨hresult, hvolume⟩
              rw [hresult] at hok
              cases hok
              refine ⟨records, hsplits.holds, by rw [hvolume], ?_, rfl⟩
              exact opening_keyspace hcreate hplace hsplits

end Opening

/-! ## Appending -/

section Appending

variable {log : Log} {handle : Handle}

/-- How an attempt to append a value can end, and what it leads to. -/
inductive Appends (log : Log) (value : Value) : Except AppendError Nat × Log → Prop
  /-- The value has no written form. -/
  | unwritable {error : EncodeError} (hfault : value.encodeFault? ≠ none) :
      Appends log value (.error (.unwritable error), log)
  /-- The file is closed. -/
  | shut (hwritten : value.encodeFault? = none) (hhandle : log.handle? = none) :
      Appends log value (.error (.refused log.refusal), log)
  /-- An attempt to write fails. -/
  | failed {handle later : Handle} (hwritten : value.encodeFault? = none)
      (hhandle : log.handle? = some handle) (hfails : handle.works = false)
      (hpieces : later.pieces = handle.pieces) (hsuffix : later.faults <:+ handle.faults) :
      Appends log value
        (.error (.refused (.cannotAppend log.path Volume.systemError)),
          { log with handle? := some later })
  /-- The log takes the value. -/
  | taken {handle later : Handle} (hwritten : value.encodeFault? = none)
      (hhandle : log.handle? = some handle)
      (hpieces : later.pieces = handle.pieces ++ [value.wire])
      (hsuffix : later.faults <:+ handle.faults) :
      Appends log value
        (.ok value.wire.length, { log with handle? := some later, appended := log.appended + 1 })

/-- A value has no written form, is refused since the file is closed, is lost in a failing
attempt to write, or is taken. -/
theorem appends (log : Log) (value : Value) : Appends log value (log.append value) := by
  cases hfault : value.encodeFault? with
  | some obstacle =>
      simp only [append, Value.encode, hfault]
      exact .unwritable (by simp [hfault])
  | none =>
      cases hhandle : log.handle? with
      | none =>
          simp only [append, Value.encode, hfault, hhandle]
          exact .shut hfault hhandle
      | some handle =>
          simp only [append, Value.encode, hfault, hhandle]
          obtain ⟨⟨htaken, hpieces⟩ | ⟨hlost, hpieces, hfails⟩, hsuffix⟩ :=
            handle.pieces_take log.room value.wire
          · rw [if_pos htaken]
            exact .taken hfault hhandle hpieces hsuffix
          · rw [if_neg (by simp [hlost])]
            exact .failed hfault hhandle hfails hpieces hsuffix

/-- An open log takes every value that has a written form, unless an attempt to write is to
fail. -/
theorem append_ok (hhandle : log.handle? = some handle) (hworks : handle.works = true)
    {value : Value} (hwritten : value.encodeFault? = none) :
    ∃ later : Handle,
      log.append value = (.ok value.wire.length,
        { log with handle? := some later, appended := log.appended + 1 }) ∧
      later.works = true ∧ later.pieces = handle.pieces ++ [value.wire] := by
  have happends := log.appends value
  generalize log.append value = outcome at happends
  cases happends with
  | unwritable hfault => exact absurd hwritten hfault
  | shut _ hnone =>
      rw [hhandle] at hnone
      cases hnone
  | failed _ hsame hfails _ _ =>
      rw [hhandle] at hsame
      cases hsame
      rw [hworks] at hfails
      cases hfails
  | taken _ hsame hpieces hsuffix =>
      rw [hhandle] at hsame
      cases hsame
      exact ⟨_, rfl, Handle.works_of_suffix hworks hsuffix, hpieces⟩

/-- Giving a value to a log does not close it. -/
theorem isHalfClosed_append (log : Log) (value : Value) :
    (log.append value).2.isHalfClosed = log.isHalfClosed := by
  have happends := log.appends value
  generalize log.append value = outcome at happends
  cases happends with
  | unwritable _ => rfl
  | shut _ _ => rfl
  | failed _ hhandle _ _ _ => simp [isHalfClosed, hhandle]
  | taken _ hhandle _ _ => simp [isHalfClosed, hhandle]

/-- If no attempt to write is to fail, then none is to fail after a value has been given to the
log. -/
theorem faultless_append (hfaultless : log.faultless = true) (value : Value) :
    (log.append value).2.faultless = true := by
  have happends := log.appends value
  generalize log.append value = outcome at happends
  cases happends with
  | unwritable _ => exact hfaultless
  | shut _ _ => exact hfaultless
  | failed _ hhandle hfails _ _ => simp [faultless, hhandle, hfails] at hfaultless
  | taken _ hhandle _ hsuffix =>
      rw [faultless, hhandle] at hfaultless
      exact Handle.works_of_suffix hfaultless hsuffix

/-- Appending several values puts their written forms one behind the other. -/
theorem appendAll_ok (hhandle : log.handle? = some handle) (hworks : handle.works = true)
    {values : List Value} (hwritten : ∀ value ∈ values, value.encodeFault? = none) :
    ∃ later : Handle, (log.appendAll values).1 = .ok () ∧
      (log.appendAll values).2 =
        { log with handle? := some later, appended := log.appended + values.length } ∧
      later.works = true ∧ later.pieces = handle.pieces ++ values.map Value.wire := by
  induction values generalizing log handle with
  | nil =>
      refine ⟨handle, rfl, ?_, hworks, by simp⟩
      rw [← hhandle]
      rfl
  | cons value values ih =>
      obtain ⟨next, happend, hstill, hnext⟩ :=
        append_ok hhandle hworks (hwritten value List.mem_cons_self)
      obtain ⟨later, hresult, hlog, hworks', hpieces⟩ :=
        @ih { log with handle? := some next, appended := log.appended + 1 } next rfl hstill
          fun other hother => hwritten other (List.mem_cons_of_mem _ hother)
      rw [Log.appendAll, happend]
      refine ⟨later, hresult, ?_, hworks', ?_⟩
      · rw [hlog, List.length_cons]
        simp only [Log.mk.injEq, true_and]
        omega
      · rw [hpieces, hnext, List.map_cons, List.append_assoc, List.singleton_append]

end Appending

end Log

end DurableStore
