import DurableStore.Proofs.Log.Lifecycle
import DurableStore.Proofs.Wire.Decision

/-!
# Opening a log does no harm

Whatever the file of a log holds, opening the log either fails and leaves the file
alone, or leaves whole records in it and drops no more than an interrupted write can
have left behind them.  What it leaves opens again, with the same outcome, and
nothing more is dropped then.  A record whose length was damaged, so that it seems
to run past the end of the file, does not take the records behind it along.

Main results:

- Definition `Replay.Remnant`: what an interrupted write can have left.
- Theorem `Replay.failure_conclude`: a replay fails exactly if something else is
  left behind the last record.
- Theorem `Log.opening_joined`: opening a log of whole records.
- Theorem `Log.opening_harmless`: opening a log does no harm to its file.
-/

namespace DurableStore

namespace Replay

variable {limits : Limits} {path : String}

/-! ## What is left behind the last record -/

/-- What an interrupted write can have left behind the last record: nothing, or
octets that are too few for a value and inside which no complete request begins. -/
def Remnant (limits : Limits) (tail : Bytes) : Prop :=
  tail = [] ∨ TooShort limits tail ∧ ∀ position, ¬ RequestInside limits tail position

/-- A replay that has not failed before fails exactly if what is left is no
remnant. -/
theorem failure_conclude {content rest : Bytes} {records : List Record}
    (hsplits : Splits limits content records rest) {replay : Replay}
    (hgoing : replay.failure? = none) :
    (conclude limits path rest replay).failure? = none ↔ Remnant limits rest := by
  rcases hsplits.stops with ⟨error, hread⟩
  have hdecode : decode limits rest 0 = .error error := decode_eq_error.mpr hread
  cases hshort : error.isShort with
  | false =>
      -- No continuation is a value, so that there is something left, and enough of it.
      have hobstacle : obstacle? limits rest = some error := obstacle_eq_some.mpr ⟨hread, hshort⟩
      have hsome : rest ≠ [] := by
        rintro rfl
        rw [readValue_nil] at hread
        cases hread
        cases hshort
      have hlong : ¬ TooShort limits rest := by
        rintro ⟨other, hother, hearly⟩
        rw [hdecode] at hother
        cases hother
        rw [DecodeError.isShort_iff.mpr hearly] at hshort
        cases hshort
      rw [conclude_malformed hobstacle]
      constructor
      · intro hnone
        cases hnone
      · intro hremnant
        exact (hremnant.elim hsome fun hfew => hlong hfew.1).elim
  | true =>
      have hfew : TooShort limits rest := ⟨error, hdecode, DecodeError.isShort_iff.mp hshort⟩
      rw [conclude_short path hread hshort, hgoing, Option.or_none, Option.map_eq_none_iff,
        follower_eq_none]
      constructor
      · exact fun hno => .inr ⟨hfew, hno⟩
      · rintro (rfl | ⟨-, hno⟩)
        · rintro position ⟨before, behind, hsplit, -⟩
          simp [Bytes.crlf] at hsplit
        · exact hno

/-- A replay that fails behind the last record fails as a replay. -/
theorem isReplay_of_conclude {rest : Bytes} {replay : Replay} {error : LogError}
    (hgoing : replay.failure? = none)
    (hfailure : (conclude limits path rest replay).failure? = some error) :
    error.isReplay = true := by
  unfold conclude fail judgeTail at hfailure
  split at hfailure
  · cases hfailure
    rfl
  · split at hfailure
    · rw [hgoing] at hfailure
      cases hfailure
    · split at hfailure
      · cases hfailure
        rfl
      · rw [hgoing] at hfailure
        cases hfailure

/-- A record is reported only if it is skipped. -/
theorem reports_steps (replay : Replay) (records : List Record) {notice : Notice}
    (hnotice : notice ∈ (replay.steps records).reports) :
    notice ∈ replay.reports ∨ (∃ offset error, notice = .skippedRecord offset error) ∨
      ∃ name offset, notice = .skippedCommand name offset := by
  induction records generalizing replay with
  | nil => exact .inl hnotice
  | cons record records ih =>
      rcases ih (replay.step record.sized) hnotice with hfirst | hskipped
      · unfold step at hfirst
        split at hfirst
        · rcases List.mem_cons.mp hfirst with rfl | hold
          · exact .inr (.inl ⟨_, _, rfl⟩)
          · exact .inl hold
        · split at hfirst
          · rcases List.mem_cons.mp hfirst with rfl | hold
            · exact .inr (.inr ⟨_, _, rfl⟩)
            · exact .inl hold
          · exact .inl hfirst
      · exact .inr hskipped

end Replay

namespace Log

variable {log : Log} {content : Bytes} {syncFails : Bool}

/-! ## Whole records -/

/-- Opening a log of whole records runs the known commands among them, leaves the
file as it is, and reports nothing that is dropped. -/
theorem opening_joined {records : List Record}
    (hholds : ∀ record ∈ records, record.Holds log.limits) (syncFails : Bool)
    (keyspace : Keyspace) :
    (log.opening ⟨.file (Record.joined records), syncFails⟩ keyspace).result = .ok
        { log with
          handle? := some .fresh
          halfClosed := false
          replayed := (Command.knownAmong (records.map Record.value)).length
          appended := 0 } ∧
      (log.opening ⟨.file (Record.joined records), syncFails⟩ keyspace).keyspace =
        keyspace.dispatchAll (Command.knownAmong (records.map Record.value)) ∧
      (log.opening ⟨.file (Record.joined records), syncFails⟩ keyspace).volume =
        ⟨.file (Record.joined records), syncFails⟩ ∧
      ∀ path count, Notice.discarding path count ∉
        (log.opening ⟨.file (Record.joined records), syncFails⟩ keyspace).notices := by
  have hsplits := splits_joined hholds
  have hcreate : (⟨.file (Record.joined records), syncFails⟩ : Volume).create =
      .ok ⟨.file (Record.joined records), syncFails⟩ := rfl
  obtain ⟨-, -, hoffset, hfailure⟩ := (Replay.start keyspace).steps_spec records
  have hwhole : (Replay.conclude log.limits log.path []
      ((Replay.start keyspace).steps records)).failure? = none := by
    rw [Replay.conclude_nil, hfailure]
    rfl
  obtain ⟨hresult, hvolume⟩ := opening_ok hcreate rfl hsplits hwhole
  refine ⟨hresult, opening_keyspace hcreate rfl hsplits, hvolume, ?_⟩
  have hreplay : log.replay ⟨.file (Record.joined records), syncFails⟩ keyspace =
      (Replay.start keyspace).steps records := by
    rw [replay_created rfl hsplits, Replay.conclude_nil]
  have hend : ¬ ((Replay.start keyspace).steps records).offset <
      (Record.joined records).length := by
    rw [hoffset]
    simp [Replay.start]
  have hnotices : (log.opening ⟨.file (Record.joined records), syncFails⟩ keyspace).notices =
      ((Replay.start keyspace).steps records).notices ++
        [.replayed log.path ((Replay.start keyspace).steps records).count] := by
    have hgoing : ((Replay.start keyspace).steps records).failure? = none := hfailure
    simp only [opening, hcreate, hreplay, hgoing, openingNotices, Volume.size, if_neg hend]
  intro path count hdiscarding
  rw [hnotices] at hdiscarding
  rcases List.mem_append.mp hdiscarding with hreported | hlast
  · rcases Replay.reports_steps _ _ (List.mem_reverse.mp hreported) with
      hnone | ⟨_, _, hskipped⟩ | ⟨_, _, hskipped⟩
    · cases hnone
    · cases hskipped
    · cases hskipped
  · rw [List.mem_singleton] at hlast
    cases hlast

/-! ## Any content -/

/-- Opening a log on a file of this content has done the file no harm. -/
structure Harmless (log : Log) (content : Bytes) (syncFails : Bool) (opening : Opening) : Prop where
  /-- A log is opened exactly if what is left behind its last record is what an
  interrupted write can have left. -/
  opened_iff : (∃ opened, opening.result = .ok opened) ↔
    Replay.Remnant log.limits (content.drop (decodeAll log.limits content).stop)
  /-- A log that is refused keeps its file. -/
  refused : ∀ error, opening.result = .error error → opening.volume = ⟨.file content, syncFails⟩
  /-- A log that is opened keeps values one behind the other, and what is dropped
  behind them is what an interrupted write can have left. -/
  kept : ∀ opened, opening.result = .ok opened → ∃ stop ≤ content.length,
    opening.volume = ⟨.file (content.take stop), syncFails⟩ ∧
    (∃ records, (∀ record ∈ records, record.Holds log.limits) ∧
      content.take stop = Record.joined records) ∧
    Replay.Remnant log.limits (content.drop stop)
  /-- The file that is left opens again under the same limits: the same commands
  are run and counted, and nothing more is dropped. -/
  reopened : ∀ opened, opening.result = .ok opened → ∀ other : Log, other.limits = log.limits →
    (∃ again, (other.opening opening.volume .empty).result = .ok again ∧
      again.replayed = opened.replayed) ∧
    (other.opening opening.volume .empty).keyspace = opening.keyspace ∧
    (other.opening opening.volume .empty).volume = opening.volume ∧
    ∀ path count, Notice.discarding path count ∉ (other.opening opening.volume .empty).notices
  /-- A damaged record that ends in a line terminator and seems to run past the end
  of the file, although a complete request stands directly behind it, is found
  out. -/
  damaged : ∀ records damage behind,
    content = Record.joined records ++ (damage ++ Bytes.crlf) ++ behind →
    (∀ record ∈ records, record.Holds log.limits) →
    TooShort log.limits (damage ++ Bytes.crlf ++ behind) →
    (∃ request stop command, decode log.limits behind 0 = .ok (request, stop) ∧
      Command.parse request = .ok command) →
    (∃ error, opening.result = .error error ∧ error.isReplay = true) ∧
      opening.volume = ⟨.file content, syncFails⟩

/-- A complete request behind a line terminator stands inside the octets. -/
theorem requestInside_behind {limits : Limits} {damage behind : Bytes} {request : Value}
    {stop : Nat} {command : Command} (hdecode : decode limits behind 0 = .ok (request, stop))
    (hparse : Command.parse request = .ok command) :
    Replay.RequestInside limits (damage ++ Bytes.crlf ++ behind) (damage ++ Bytes.crlf).length := by
  obtain ⟨next, hread, -⟩ := decode_eq_ok.mp hdecode
  rw [List.drop_zero] at hread
  obtain ⟨used, hbehind, -, hreads⟩ := readValue_reads hread
  have hmoved : decode limits (damage ++ Bytes.crlf ++ behind) (damage ++ Bytes.crlf).length =
      .ok (request, (damage ++ Bytes.crlf).length + used.length) := by
    refine decode_eq_ok.mpr ⟨⟨(damage ++ Bytes.crlf).length + used.length, next.rest⟩, ?_, rfl⟩
    rw [List.drop_left, hbehind]
    exact hreads.move _ _
  exact ⟨damage, behind, rfl, rfl, request, _, command, hmoved, hparse⟩

/-- An interrupted write cannot have left a complete request behind a line
terminator. -/
theorem not_remnant_of_request {limits : Limits} {damage behind : Bytes} {request : Value}
    {stop : Nat} {command : Command} (hdecode : decode limits behind 0 = .ok (request, stop))
    (hparse : Command.parse request = .ok command) :
    ¬ Replay.Remnant limits (damage ++ Bytes.crlf ++ behind) := by
  rintro (hnone | ⟨-, hno⟩)
  · simp [Bytes.crlf] at hnone
  · exact hno _ (requestInside_behind hdecode hparse)

variable {opening : Opening}

/-- A log that is refused for what is left behind its last record has come to no
harm. -/
theorem harmless_refused {records : List Record} {rest : Bytes}
    (hsplits : Splits log.limits content records rest)
    (hremnant : ¬ Replay.Remnant log.limits rest) {error : LogError}
    (hresult : opening.result = .error error) (hreplay : error.isReplay = true)
    (hvolume : opening.volume = ⟨.file content, syncFails⟩) :
    Harmless log content syncFails opening where
  opened_iff := by
    rw [hsplits.drop_stop]
    refine ⟨fun ⟨opened, hok⟩ => ?_, fun hyes => absurd hyes hremnant⟩
    rw [hresult] at hok
    cases hok
  refused _ _ := hvolume
  kept opened hok := by
    rw [hresult] at hok
    cases hok
  reopened opened hok := by
    rw [hresult] at hok
    cases hok
  damaged _ _ _ _ _ _ _ := ⟨⟨error, hresult, hreplay⟩, hvolume⟩

/-- A log that is opened has come to no harm if it keeps the records at the beginning of
its file and drops no more than an interrupted write can have left. -/
theorem harmless_opened {records : List Record} {rest : Bytes}
    (hsplits : Splits log.limits content records rest)
    (hremnant : Replay.Remnant log.limits rest) {opened : Log}
    (hresult : opening.result = .ok opened)
    (hreplayed : opened.replayed = (Command.knownAmong (records.map Record.value)).length)
    (hkeyspace : opening.keyspace =
      Keyspace.empty.dispatchAll (Command.knownAmong (records.map Record.value)))
    (hvolume : opening.volume = ⟨.file (Record.joined records), syncFails⟩) :
    Harmless log content syncFails opening := by
  have hstop : content.take (Record.joined records).length = Record.joined records := by
    rw [hsplits.partition, List.take_left]
  constructor
  case opened_iff =>
    rw [hsplits.drop_stop]
    exact ⟨fun _ => hremnant, fun _ => ⟨opened, hresult⟩⟩
  case refused =>
    intro error herror
    rw [hresult] at herror
    cases herror
  case kept =>
    intro _ _
    refine ⟨(Record.joined records).length, ?_, ?_, ⟨records, hsplits.holds, hstop⟩, ?_⟩
    · rw [hsplits.partition, List.length_append]
      exact Nat.le_add_right _ _
    · rw [hstop, hvolume]
    · rw [hsplits.partition, List.drop_left]
      exact hremnant
  case reopened =>
    intro same hsame other hlimits
    rw [hresult] at hsame
    cases hsame
    have hholds : ∀ record ∈ records, record.Holds other.limits := by
      rw [hlimits]
      exact hsplits.holds
    obtain ⟨hagain, hequal, hfile, hquiet⟩ := opening_joined hholds syncFails .empty
    rw [hvolume, hkeyspace]
    exact ⟨⟨_, hagain, hreplayed.symm⟩, hequal, hfile, hquiet⟩
  case damaged =>
    -- What is left behind the records is what begins with the damage.
    rintro before damage behind hcontent hholds ⟨error, hdecode, -⟩
      ⟨request, stop, command, hrequest, hparse⟩
    have hdamaged : Splits log.limits content before (damage ++ Bytes.crlf ++ behind) :=
      ⟨by rw [hcontent, List.append_assoc], hholds, error, decode_eq_error.mp hdecode⟩
    obtain ⟨-, rfl⟩ := hsplits.unique hdamaged
    exact absurd hremnant (not_remnant_of_request hrequest hparse)

/-- Opening a log does no harm to its file, whatever the file holds. -/
theorem opening_harmless (log : Log) (content : Bytes) (syncFails : Bool) :
    Harmless log content syncFails (log.opening ⟨.file content, syncFails⟩ .empty) := by
  have hcreate : (⟨.file content, syncFails⟩ : Volume).create = .ok ⟨.file content, syncFails⟩ :=
    rfl
  rcases exists_splits log.limits content with ⟨records, rest, hsplits⟩
  obtain ⟨-, -, -, hsteps⟩ := (Replay.start .empty).steps_spec records
  have hgoing : ((Replay.start .empty).steps records).failure? = none := hsteps
  have hremnant : (Replay.conclude log.limits log.path rest
      ((Replay.start .empty).steps records)).failure? = none ↔ Replay.Remnant log.limits rest :=
    Replay.failure_conclude hsplits hgoing
  cases hfailure : (Replay.conclude log.limits log.path rest
      ((Replay.start .empty).steps records)).failure? with
  | some error =>
      obtain ⟨hresult, hvolume⟩ := opening_error hcreate rfl hsplits hfailure
      have hsomething : ¬ Replay.Remnant log.limits rest := by
        rw [← hremnant, hfailure]
        simp
      exact harmless_refused hsplits hsomething hresult
        (Replay.isReplay_of_conclude hgoing hfailure) hvolume
  | none =>
      obtain ⟨hresult, hvolume⟩ := opening_ok hcreate rfl hsplits hfailure
      exact harmless_opened hsplits (hremnant.mp hfailure) hresult rfl
        (opening_keyspace hcreate rfl hsplits) hvolume

end Log

end DurableStore
