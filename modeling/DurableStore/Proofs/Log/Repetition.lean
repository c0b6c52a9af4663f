import DurableStore.Proofs.Keyspace.Recall
import DurableStore.Proofs.Log.Reopening

/-!
# Replaying a log more than once

The cell of a key after a replay is what the last accepted write that names the key has
left, whatever the keyspace held before; a key that no accepted write names keeps its
cell.  So replays from different keyspaces agree on every key that the log names, and a
second replay changes nothing.

Main results:

- Theorem `Keyspace.dispatchAll_again`: running commands again changes nothing.
- Theorem `Keyspace.exists_touches_iff`: whether accepted writes name a key does not
  depend on the keyspace.
- Structure `Log.Repeatable` and theorem `Log.replay_repeatable`: replays of one file from
  any keyspaces.
-/

namespace DurableStore

/-! ## Commands that are run again -/

namespace Keyspace

variable {keyspace : Keyspace} {commands : List Command} {key : Bytes}

/-- Running commands a second time changes nothing. -/
theorem dispatchAll_again (keyspace : Keyspace) (commands : List Command) :
    (keyspace.dispatchAll commands).dispatchAll commands = keyspace.dispatchAll commands := by
  apply ext_lookup
  intro key
  rw [lookup_dispatchAll, lookup_dispatchAll]
  cases Command.lastEffect? commands key <;> rfl

/-- One of the answers is that to an accepted write of a key exactly if one of the
commands does something to the key. -/
theorem exists_touches_iff :
    (∃ answer ∈ keyspace.answers commands, answer.Touches key) ↔
      Command.lastEffect? commands key ≠ none := by
  rw [← Answer.lastEffect_answers keyspace, Ne, List.getLast?_eq_none_iff,
    List.filterMap_eq_nil_iff]
  push Not
  refine exists_congr fun answer => and_congr_right fun hanswer => ?_
  obtain ⟨other, hsame⟩ := Answer.exists_dispatch hanswer
  rw [hsame, Answer.touches_iff, Option.isSome_iff_ne_none]

/-- The last answer to an accepted write of a key tells the last effect on the key. -/
theorem lastEffect_of_answers {before after : List Answer} {answer : Answer}
    (hanswers : keyspace.answers commands = before ++ answer :: after)
    (hlater : ∀ later ∈ after, ¬ later.Touches key) {effect : Effect}
    (heffect : answer.command.effect? key = some effect) :
    Command.lastEffect? commands key = some effect := by
  have hnothing : after.filterMap (fun later => later.command.effect? key) = [] := by
    rw [List.filterMap_eq_nil_iff]
    intro later hmem
    have hanswer : later ∈ keyspace.answers commands := by
      rw [hanswers]
      simp [hmem]
    obtain ⟨other, hsame⟩ := Answer.exists_dispatch hanswer
    have huntouched := hlater later hmem
    rw [hsame, Answer.touches_iff] at huntouched
    simpa using huntouched
  rw [← Answer.lastEffect_answers keyspace, hanswers, List.filterMap_append,
    List.filterMap_cons, heffect, hnothing]
  simp

end Keyspace

/-! ## Replays of one file -/

namespace Log

/-- The known commands among the records of a file, in order. -/
def commands (log : Log) (content : Bytes) : List Command :=
  Command.knownAmong ((decodeAll log.limits content).values.map Prod.fst)

/-- An accepted write among the records of a file names a key, if the file is replayed from
the given keyspace. -/
def Names (log : Log) (content : Bytes) (keyspace : Keyspace) (key : Bytes) : Prop :=
  ∃ answer ∈ keyspace.answers (log.commands content), answer.Touches key

/-- What replays of a file from two keyspaces have to do with each other. -/
structure Repeatable (log : Log) (volume : Volume) (content : Bytes) (first second : Keyspace) :
    Prop where
  /-- The other replay succeeds as well. -/
  succeeds : (log.replay volume second).failure? = none
  /-- Replaying once more from what the first replay has left succeeds and changes
  nothing. -/
  again : (log.replay volume (log.replay volume first).keyspace).failure? = none ∧
    (log.replay volume (log.replay volume first).keyspace).keyspace =
      (log.replay volume first).keyspace
  /-- The same keys are named in both replays. -/
  names_iff : ∀ key, log.Names content first key ↔ log.Names content second key
  /-- On every key that is named, the keyspaces that the replays leave agree. -/
  agree : ∀ key, log.Names content first key →
    (log.replay volume first).keyspace.lookup? key =
      (log.replay volume second).keyspace.lookup? key
  /-- Every other key keeps its cell in both replays. -/
  kept : ∀ key, ¬ log.Names content first key →
    (log.replay volume first).keyspace.lookup? key = first.lookup? key ∧
      (log.replay volume second).keyspace.lookup? key = second.lookup? key
  /-- The last accepted write that names a key decides what is left of it. -/
  last : ∀ key before answer after,
    first.answers (log.commands content) = before ++ answer :: after →
    (∀ later ∈ after, ¬ later.Touches key) →
    (∀ value, answer.Sets key value →
      (log.replay volume first).keyspace.lookup? key = some (some value)) ∧
    (answer.Removes key → (log.replay volume first).keyspace.lookup? key = none)

variable {log : Log} {content : Bytes} {syncFails : Bool}

/-- A replay runs the commands of the file and succeeds if an interrupted write can have
left what is behind its last record. -/
theorem replay_file (log : Log) (content : Bytes) (syncFails : Bool) (keyspace : Keyspace) :
    (log.replay ⟨.file content, syncFails⟩ keyspace).keyspace =
        keyspace.dispatchAll (log.commands content) ∧
      ((log.replay ⟨.file content, syncFails⟩ keyspace).failure? = none ↔
        Replay.Remnant log.limits (content.drop (decodeAll log.limits content).stop)) := by
  obtain ⟨records, rest, hsplits⟩ := exists_splits log.limits content
  obtain ⟨hkeyspace, -, -, hgoing⟩ := (Replay.start keyspace).steps_spec records
  obtain ⟨hframe, -, -⟩ := Replay.conclude_frame log.limits log.path rest
    ((Replay.start keyspace).steps records)
  rw [replay_created rfl hsplits, hsplits.drop_stop, commands, hsplits.values_decodeAll]
  exact ⟨hframe.trans hkeyspace, Replay.failure_conclude hsplits hgoing⟩

/-- Replays of a file from any two keyspaces, one of which succeeds, leave the same in all
keys that accepted writes of the file name, leave the other keys alone, and can be
repeated without changing anything. -/
theorem replay_repeatable {first : Keyspace} (second : Keyspace)
    (hsucceeds : (log.replay ⟨.file content, syncFails⟩ first).failure? = none) :
    Repeatable log ⟨.file content, syncFails⟩ content first second := by
  have hkeyspace : ∀ keyspace, (log.replay ⟨.file content, syncFails⟩ keyspace).keyspace =
      keyspace.dispatchAll (log.commands content) := fun keyspace =>
    (log.replay_file content syncFails keyspace).1
  have hall : ∀ keyspace, (log.replay ⟨.file content, syncFails⟩ keyspace).failure? = none :=
    fun keyspace => (log.replay_file content syncFails keyspace).2.mpr
      ((log.replay_file content syncFails first).2.mp hsucceeds)
  have hnames : ∀ keyspace key, log.Names content keyspace key ↔
      Command.lastEffect? (log.commands content) key ≠ none := fun keyspace key =>
    Keyspace.exists_touches_iff
  constructor
  case succeeds => exact hall second
  case again =>
    refine ⟨hall _, ?_⟩
    rw [hkeyspace, hkeyspace, Keyspace.dispatchAll_again]
  case names_iff =>
    intro key
    rw [hnames, hnames]
  case agree =>
    intro key hnamed
    obtain ⟨effect, heffect⟩ := Option.ne_none_iff_exists'.mp ((hnames first key).mp hnamed)
    simp only [hkeyspace, Keyspace.lookup_dispatchAll, heffect, Option.map_some, Option.getD_some]
  case kept =>
    intro key hnamed
    have hnone : Command.lastEffect? (log.commands content) key = none := by
      rwa [hnames, ne_eq, not_not] at hnamed
    simp only [hkeyspace, Keyspace.lookup_dispatchAll, hnone, Option.map_none, Option.getD_none,
      and_self]
  case last =>
    intro key before answer after hanswers hlater
    have hanswer : answer ∈ first.answers (log.commands content) := by
      rw [hanswers]
      simp
    obtain ⟨other, hsame⟩ := Answer.exists_dispatch hanswer
    have hlast : ∀ effect, answer.command.effect? key = some effect →
        (log.replay ⟨.file content, syncFails⟩ first).keyspace.lookup? key = effect.cell := by
      intro effect heffect
      rw [hkeyspace, Keyspace.lookup_dispatchAll,
        Keyspace.lastEffect_of_answers hanswers hlater heffect]
      rfl
    constructor
    · intro value hsets
      rw [hsame, Answer.sets_iff] at hsets
      exact hlast _ hsets
    · intro hremoves
      rw [hsame, Answer.removes_iff] at hremoves
      exact hlast _ hremoves

/-- A file with a write, a record that is no command, an unknown command, a removal of two
keys, a refused removal, and the beginning of another record. -/
def mixed : Bytes :=
  [["SET", "k", "v"], ["FLUSH"], ["del", "a", "k", "a"], ["set", "k", "w"], ["DEL"]].flatMap
      (fun words => (Value.array (words.map fun word => .bulk (Bytes.ofString word))).wire ++
        Bytes.ofString "+OK\r\n") ++
    Bytes.ofString "*3\r\n$3\r\nSET\r\n$1\r\nk\r\n$1"

/-- The file is replayed from the empty keyspace and from one with two keys. -/
theorem replay_repeatable_mixed :
    ((unopened "log.aof" .standard .one).replay ⟨.file mixed, false⟩ .empty).failure? = none ∧
      Repeatable (unopened "log.aof" .standard .one) ⟨.file mixed, false⟩ mixed .empty
        ((Keyspace.empty.put [0x61] (some .null)).put [0x62] (some (.integer 1))) := by
  have hsucceeds :
      ((unopened "log.aof" .standard .one).replay ⟨.file mixed, false⟩ .empty).failure? =
        none := by
    decide +kernel
  exact ⟨hsucceeds, replay_repeatable _ hsucceeds⟩

end Log

end DurableStore
