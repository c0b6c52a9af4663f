import DurableStore.Proofs.Keyspace.Recall
import DurableStore.Proofs.Keyspace.Writes

/-!
# What removals count

A removal counts the different keys among those named that are present, and the keyspace
loses as many.  How often and in which order the keys are named makes no difference, nor
does it whether they are removed by one command, by two, or one by one.

Main results:

- Theorem `Keyspace.size_deleteMany`: what removing keys takes from the size of a keyspace.
- Theorem `Keyspace.deleteMany_congr`: the order and the repetitions of the keys do not
  matter.
- Theorem `Keyspace.deleteMany_append`: removing keys in two parts.
- Structure `Removal` and theorem `Keyspace.dispatchAll_removal`: what a removal counts.
-/

namespace DurableStore

namespace Keyspace

/-! ## Removing keys from any keyspace -/

/-- Remove keys one by one, and say for each of them whether it had a value. -/
def deleteEach (keyspace : Keyspace) : List Bytes → List Bool × Keyspace
  | [] => ([], keyspace)
  | key :: later =>
      let (removed, rest) := keyspace.delete key
      let (laterRemoved, last) := rest.deleteEach later
      (removed :: laterRemoved, last)

/-- Removing keys counts those that are removed when they are removed one by one. -/
theorem deleteMany_eq_deleteEach (keyspace : Keyspace) (keys : List Bytes) :
    keyspace.deleteMany keys =
      ((keyspace.deleteEach keys).1.count true, (keyspace.deleteEach keys).2) := by
  induction keys generalizing keyspace with
  | nil => rfl
  | cons key later ih =>
      rw [deleteMany, deleteEach, ih]
      cases hremoved : (keyspace.delete key).1 <;> simp [hremoved]

/-- The keys that are left are those that have not been named. -/
theorem keys_deleteMany (keyspace : Keyspace) (keys : List Bytes) :
    (keyspace.deleteMany keys).2.keys.toFinset = keyspace.keys.toFinset \ keys.toFinset := by
  ext key
  rw [Finset.mem_sdiff, List.mem_toFinset, List.mem_toFinset, List.mem_toFinset, mem_keys,
    mem_keys, contains, contains, lookup_deleteMany]
  by_cases hnamed : key ∈ keys <;> simp [hnamed]

/-- A keyspace loses the different keys that are named and present. -/
theorem size_deleteMany (keyspace : Keyspace) (keys : List Bytes) :
    (keyspace.deleteMany keys).2.size + (keys.toFinset.filter (keyspace.contains · = true)).card =
      keyspace.size := by
  have hpresent : keys.toFinset.filter (keyspace.contains · = true) =
      keyspace.keys.toFinset ∩ keys.toFinset := by
    ext key
    rw [Finset.mem_filter, Finset.mem_inter, List.mem_toFinset, List.mem_toFinset, mem_keys,
      and_comm]
  rw [size_eq_card, size_eq_card, keys_deleteMany, hpresent, Finset.card_sdiff_add_card_inter]

/-- Which keys are removed and counted depends only on which keys are named. -/
theorem deleteMany_congr (keyspace : Keyspace) {keys others : List Bytes}
    (hsame : ∀ key, key ∈ others ↔ key ∈ keys) :
    keyspace.deleteMany others = keyspace.deleteMany keys := by
  apply Prod.ext
  · have hset : others.toFinset = keys.toFinset := by
      ext key
      rw [List.mem_toFinset, List.mem_toFinset, hsame]
    rw [deleteMany_count, deleteMany_count, valued, valued, hset]
  · apply ext_lookup
    intro key
    rw [lookup_deleteMany, lookup_deleteMany]
    simp only [hsame]

/-- The counts of keys that are removed in two parts add up. -/
theorem deleteMany_append (keyspace : Keyspace) (first second : List Bytes) :
    keyspace.deleteMany (first ++ second) =
      ((keyspace.deleteMany first).1 + ((keyspace.deleteMany first).2.deleteMany second).1,
        ((keyspace.deleteMany first).2.deleteMany second).2) := by
  induction first generalizing keyspace with
  | nil => simp [deleteMany]
  | cons key first ih =>
      rw [List.cons_append, deleteMany, ih, deleteMany]
      exact Prod.ext (Nat.add_right_comm _ _ _) rfl

/-- A command that removes keys is answered with the number of those that had a value. -/
theorem dispatch_removal (keyspace : Keyspace) {name : Bytes} {keys : List Bytes}
    (hverb : Verb.ofName? name = some .del) (hkeys : keys ≠ []) :
    keyspace.dispatch name (keys.map .bulk) =
      (.integer (keyspace.deleteMany keys).1, (keyspace.deleteMany keys).2) := by
  rw [dispatch_eq_run hverb, run, remove_keys keyspace hkeys]

end Keyspace

/-! ## What a removal counts -/

/-- What the answer to a command that removes keys, with the keyspace that it leaves, has
to do with the keyspace before. -/
structure Removal (keyspace : Keyspace) (name : Bytes) (keys : List Bytes)
    (answer : Value × Keyspace) : Prop where
  /-- The reply is the number of different keys among those named that were present. -/
  counted : answer.1 = .integer (keys.toFinset.filter (keyspace.contains · = true)).card
  /-- The size of the keyspace has decreased by as much. -/
  decrease : answer.1 = .integer ((keyspace.size : Int) - answer.2.size)
  /-- Naming the same keys in another order or more often makes no difference. -/
  reordered : ∀ others : List Bytes, (∀ key, key ∈ others ↔ key ∈ keys) →
    keyspace.dispatch name (others.map .bulk) = answer
  /-- Neither does it to remove the keys one by one and to count those that were removed. -/
  oneByOne : answer =
    (.integer ((keyspace.deleteEach keys).1.count true), (keyspace.deleteEach keys).2)
  /-- Two commands that name the same keys between them leave the same keyspace, and their
  counts add up. -/
  split : ∀ first second : List Bytes, first ≠ [] → second ≠ [] →
    (∀ key, key ∈ first ++ second ↔ key ∈ keys) → ∃ firstCount secondCount : Nat,
      (keyspace.dispatch name (first.map .bulk)).1 = .integer firstCount ∧
        (keyspace.dispatch name (first.map .bulk)).2.dispatch name (second.map .bulk) =
          (.integer secondCount, answer.2) ∧
        answer.1 = .integer ((firstCount + secondCount : Nat) : Int)

namespace Keyspace

/-- Whatever commands have been run on the empty keyspace, a removal counts exactly what it
removes. -/
theorem dispatchAll_removal (commands : List Command) {name : Bytes} {keys : List Bytes}
    (hverb : Verb.ofName? name = some .del) (hkeys : keys ≠ []) :
    Removal (Keyspace.empty.dispatchAll commands) name keys
      ((Keyspace.empty.dispatchAll commands).dispatch name (keys.map .bulk)) := by
  have hcount := deleteMany_dispatchAll commands keys
  generalize Keyspace.empty.dispatchAll commands = keyspace at hcount ⊢
  have hanswer := keyspace.dispatch_removal hverb hkeys
  constructor
  case counted => rw [hanswer, hcount]
  case decrease =>
    have hsize := keyspace.size_deleteMany keys
    rw [← hcount] at hsize
    have hdecrease : ((keyspace.deleteMany keys).1 : Int) =
        keyspace.size - (keyspace.deleteMany keys).2.size := by
      omega
    rw [hanswer, hdecrease]
  case reordered =>
    intro others hsame
    have hothers : others ≠ [] := by
      rintro rfl
      obtain ⟨key, hkey⟩ := List.exists_mem_of_ne_nil keys hkeys
      exact List.not_mem_nil ((hsame key).mpr hkey)
    rw [hanswer, keyspace.dispatch_removal hverb hothers, keyspace.deleteMany_congr hsame]
  case oneByOne => rw [hanswer, deleteMany_eq_deleteEach]
  case split =>
    intro first second hfirst hsecond hsame
    rw [hanswer, ← keyspace.deleteMany_congr hsame, deleteMany_append,
      keyspace.dispatch_removal hverb hfirst]
    exact ⟨_, _, rfl, dispatch_removal _ hverb hsecond, rfl⟩

/-- Of keys that are named twice, or are absent, or differ only in undecodable octets, a
removal counts those that it removes. -/
theorem dispatchAll_removal_repeated :
    Verb.ofName? (Bytes.ofString "dEl") = some .del ∧
      [[0xFF], [0x6B], [0xFF], [0xFE]] ≠ ([] : List Bytes) ∧
      Removal
        (Keyspace.empty.dispatchAll
          [⟨Bytes.ofString "set", [.bulk [0xFF], .bulk [0x76]], none⟩,
            ⟨Bytes.ofString "SET", [.bulk [0x6B], .null], none⟩])
        (Bytes.ofString "dEl") [[0xFF], [0x6B], [0xFF], [0xFE]]
        ((Keyspace.empty.dispatchAll
          [⟨Bytes.ofString "set", [.bulk [0xFF], .bulk [0x76]], none⟩,
            ⟨Bytes.ofString "SET", [.bulk [0x6B], .null], none⟩]).dispatch
          (Bytes.ofString "dEl") ([[0xFF], [0x6B], [0xFF], [0xFE]].map .bulk)) := by
  have hverb : Verb.ofName? (Bytes.ofString "dEl") = some .del := by decide +kernel
  have hkeys : [[0xFF], [0x6B], [0xFF], [0xFE]] ≠ ([] : List Bytes) := by decide
  exact ⟨hverb, hkeys, dispatchAll_removal _ hverb hkeys⟩

end Keyspace

end DurableStore
