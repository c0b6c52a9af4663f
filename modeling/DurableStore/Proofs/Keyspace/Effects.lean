import DurableStore.Proofs.Requests
import Mathlib.Data.Finset.Card
import Mathlib.Data.List.Sort

/-!
# What commands do to keys

A command sets a key, removes it, or leaves it as it is, and which of the three depends
on the command alone.  So the cell of a key is decided by the last command that did
something to it, and the reply to a command depends on nothing but the cells of the keys
that it reads.

Main results:

- Theorem `Keyspace.ext_lookup`: keyspaces with the same cells are equal.
- Theorem `Keyspace.deleteMany_count`: how many keys a removal counts.
- Definition `Command.effect?`: what a command does to a key.
- Definition `Lasts` and theorem `lasts_iff_getLast`: a value that has been set and has
  lasted is the last effect.
- Theorems `Keyspace.lookup_dispatch` and `Keyspace.lookup_dispatchAll`: the cell of a key
  after a command, and after commands one after the other.
- Theorem `Keyspace.reply_congr`: what the reply to a command depends on.
-/

namespace DurableStore

/-! ## Cells -/

namespace Entry

variable {key : Bytes} {cell : Cell} {entries later : List Entry}

/-- A cell that is found is there. -/
theorem mem_of_find (hfind : find? key entries = some cell) : (key, cell) ∈ entries := by
  induction entries with
  | nil => cases hfind
  | cons entry entries ih =>
      by_cases hkey : key = entry.1
      · simp [find?, hkey] at hfind
        simp [hkey, ← hfind]
      · simp [find?, hkey] at hfind
        exact List.mem_cons_of_mem _ (ih hfind)

/-- A cell that is there is found, since every key is there once. -/
theorem Ascending.find_of_mem (hascending : Ascending entries) (hentry : (key, cell) ∈ entries) :
    find? key entries = some cell := by
  induction entries with
  | nil => cases hentry
  | cons entry entries ih =>
      obtain ⟨habove, hrest⟩ := List.pairwise_cons.mp hascending
      rcases List.mem_cons.mp hentry with rfl | hlater
      · simp [find?]
      · have hkey : key ≠ entry.1 := by
          intro hsame
          exact List.lt_irrefl _ (hsame ▸ habove _ hlater)
        simp [find?, hkey, ih hrest hlater]

/-- Ascending entries with the same cells are equal. -/
theorem Ascending.ext (hascending : Ascending entries) (hlater : Ascending later)
    (hfind : ∀ key, find? key entries = find? key later) : entries = later := by
  have : Std.Irrefl fun entry later : Entry => entry.1 < later.1 :=
    ⟨fun entry => List.lt_irrefl entry.1⟩
  have : Std.Antisymm fun entry later : Entry => entry.1 < later.1 :=
    ⟨fun _ _ hbefore hafter => absurd hafter (List.lt_asymm hbefore)⟩
  apply List.Pairwise.eq_of_mem_iff hascending hlater
  intro entry
  constructor
  · intro hentry
    exact mem_of_find ((hfind entry.1).symm.trans (hascending.find_of_mem hentry))
  · intro hentry
    exact mem_of_find ((hfind entry.1).trans (hlater.find_of_mem hentry))

end Entry

namespace Keyspace

/-- Keyspaces with the same cells are equal. -/
theorem ext_lookup {keyspace other : Keyspace}
    (hlookup : ∀ key, keyspace.lookup? key = other.lookup? key) : keyspace = other :=
  ext (keyspace.ascending.ext other.ascending hlookup)

/-- The keys of a keyspace are those that are present. -/
theorem mem_keys {keyspace : Keyspace} {key : Bytes} :
    key ∈ keyspace.keys ↔ keyspace.contains key = true := by
  unfold contains
  constructor
  · intro hkey
    obtain ⟨entry, hentry, rfl⟩ := List.mem_map.mp hkey
    simp [lookup?, keyspace.ascending.find_of_mem hentry]
  · intro hcontains
    obtain ⟨cell, hcell⟩ := Option.isSome_iff_exists.mp hcontains
    exact List.mem_map_of_mem (f := Prod.fst) (Entry.mem_of_find hcell)

/-- No key stands twice in a keyspace. -/
theorem nodup_keys (keyspace : Keyspace) : keyspace.keys.Nodup := by
  apply List.pairwise_map.mpr
  apply keyspace.ascending.imp
  intro entry later hbefore hsame
  exact List.lt_irrefl _ (hsame ▸ hbefore)

/-- The size of a keyspace is the number of its keys. -/
theorem size_eq_card (keyspace : Keyspace) : keyspace.size = keyspace.keys.toFinset.card := by
  rw [List.toFinset_card_of_nodup keyspace.nodup_keys, keys, List.length_map]
  rfl

/-! ## Removing keys -/

/-- Removing keys leaves the other keys as they are. -/
theorem lookup_deleteMany (keyspace : Keyspace) (keys : List Bytes) (key : Bytes) :
    (keyspace.deleteMany keys).2.lookup? key =
      if key ∈ keys then none else keyspace.lookup? key := by
  induction keys generalizing keyspace with
  | nil => rfl
  | cons first keys ih =>
      rw [deleteMany, ih, delete, lookup_erase]
      by_cases hlater : key ∈ keys <;> by_cases hfirst : key = first <;> simp [hlater, hfirst]

/-- The different keys among those named that have a value. -/
def valued (keyspace : Keyspace) (keys : List Bytes) : Finset Bytes :=
  keys.toFinset.filter fun key => (keyspace.get? key).isSome

/-- The keys with a value after one key has been removed. -/
theorem valued_erase (keyspace : Keyspace) (first : Bytes) (keys : List Bytes) :
    (keyspace.erase first).valued keys = (keyspace.valued keys).erase first := by
  ext key
  rw [valued, valued, Finset.mem_erase, Finset.mem_filter, Finset.mem_filter]
  by_cases hsame : key = first <;> simp [get?, lookup_erase, hsame]

/-- Removing keys counts those that had a value, each of them once. -/
theorem deleteMany_count (keyspace : Keyspace) (keys : List Bytes) :
    (keyspace.deleteMany keys).1 = (keyspace.valued keys).card := by
  induction keys generalizing keyspace with
  | nil => rfl
  | cons first keys ih =>
      rw [deleteMany, ih, delete, valued_erase]
      by_cases hvalue : (keyspace.get? first).isSome = true
      · have hvalued : keyspace.valued (first :: keys) = insert first (keyspace.valued keys) := by
          simp [valued, Finset.filter_insert, hvalue]
        rw [hvalued, ← Finset.card_erase_add_one (Finset.mem_insert_self first _),
          Finset.erase_insert_eq_erase, hvalue]
        rfl
      · have hvalued : keyspace.valued (first :: keys) = keyspace.valued keys := by
          simp [valued, Finset.filter_insert, hvalue]
        have hnot : first ∉ keyspace.valued keys := by
          simp [valued, hvalue]
        rw [hvalued, Finset.erase_eq_of_notMem hnot]
        simp [hvalue]

end Keyspace

/-! ## Effects -/

/-- What a write does to a key. -/
inductive Effect
  | set (value : Value)
  | remove
  deriving DecidableEq, Repr

/-- The cell of a key after a write. -/
def Effect.cell : Effect → Option Cell
  | .set value => some (some value)
  | .remove => none

section Lasts

variable {α : Type} {holds spoils : α → Prop} {list : List α}

/-- A member of a list has one property, and no later member has another one. -/
def Lasts (holds spoils : α → Prop) (list : List α) : Prop :=
  ∃ before item after, list = before ++ item :: after ∧ holds item ∧
    ∀ later ∈ after, ¬ spoils later

/-- A further member has the one property, or it has not the other and something has
lasted. -/
theorem lasts_concat {item : α} :
    Lasts holds spoils (list ++ [item]) ↔ holds item ∨ ¬ spoils item ∧ Lasts holds spoils list := by
  constructor
  · rintro ⟨before, first, after, hlist, hholds, hafter⟩
    rcases List.eq_nil_or_concat after with rfl | ⟨between, last, rfl⟩
    · obtain ⟨-, hsame⟩ := List.append_inj' hlist rfl
      cases hsame
      exact .inl hholds
    · rw [List.concat_eq_append, ← List.cons_append, ← List.append_assoc] at hlist
      obtain ⟨hbefore, hsame⟩ := List.append_inj' hlist rfl
      cases hsame
      refine .inr ⟨hafter item (by simp), before, first, between, hbefore, hholds, ?_⟩
      intro later hlater
      exact hafter later (by simp [hlater])
  · rintro (hholds | ⟨hunspoiled, before, first, after, rfl, hholds, hafter⟩)
    · exact ⟨list, item, [], rfl, hholds, by simp⟩
    · refine ⟨before, first, after ++ [item], by simp, hholds, ?_⟩
      intro later hlater
      rcases List.mem_append.mp hlater with hold | hlast
      · exact hafter later hold
      · rw [List.mem_singleton.mp hlast]
        exact hunspoiled

/-- A value that has been set has lasted exactly if setting it was the last effect. -/
theorem lasts_iff_getLast {effect? : α → Option Effect} {value : Value}
    (hholds : ∀ item ∈ list, holds item ↔ effect? item = some (.set value))
    (hspoils : ∀ item ∈ list, spoils item ↔ (effect? item).isSome = true) :
    Lasts holds spoils list ↔ (list.filterMap effect?).getLast? = some (.set value) := by
  induction list using List.reverseRecOn with
  | nil => simp [Lasts]
  | append_singleton list item ih =>
      have hitem : item ∈ list ++ [item] := by simp
      rw [lasts_concat, hholds item hitem, hspoils item hitem,
        ih (fun other hother => hholds other (List.mem_append_left _ hother))
          (fun other hother => hspoils other (List.mem_append_left _ hother)),
        List.filterMap_append, List.getLast?_append]
      cases heffect : effect? item with
      | none => simp [heffect]
      | some effect => cases effect <;> simp [heffect]

end Lasts

/-- The payloads of present bulk strings. -/
theorem Value.filterMap_payload (payloads : List Bytes) :
    (payloads.map Value.bulk).filterMap Value.payload? = payloads := by
  rw [List.filterMap_map]
  exact List.filterMap_some

/-- Removing keys is answered with the number of those that had a value. -/
theorem Keyspace.remove_keys (keyspace : Keyspace) {keys : List Bytes} (hkeys : keys ≠ []) :
    keyspace.remove (keys.map .bulk) =
      (.integer (keyspace.deleteMany keys).1, (keyspace.deleteMany keys).2) := by
  unfold remove
  rw [Value.payloads_eq_some.mpr rfl]
  cases keys with
  | nil => exact absurd rfl hkeys
  | cons key keys => rfl

namespace Effect

/-- What setting a key does to a key, if it does anything to it. -/
def ofStore? (args : List Value) (key : Bytes) : Option Effect :=
  match args with
  | [arg, value] => if arg.payload? = some key then some (.set value) else none
  | _ => none

/-- What removing keys does to a key, if it does anything to it. -/
def ofRemove? (args : List Value) (key : Bytes) : Option Effect :=
  match args.mapM Value.payload? with
  | some keys => if key ∈ keys then some .remove else none
  | none => none

end Effect

namespace Command

/-- What a command does to a key, if it does anything to it. -/
def effect? (command : Command) (key : Bytes) : Option Effect :=
  match command.verb? with
  | some .set => Effect.ofStore? command.args key
  | some .del => Effect.ofRemove? command.args key
  | _ => none

/-- What the last of several commands that did something to a key did to it. -/
def lastEffect? (commands : List Command) (key : Bytes) : Option Effect :=
  (commands.filterMap fun command => command.effect? key).getLast?

/-- A further command decides, if it does anything to the key. -/
theorem lastEffect_concat (commands : List Command) (command : Command) (key : Bytes) :
    lastEffect? (commands ++ [command]) key =
      (command.effect? key).or (lastEffect? commands key) := by
  unfold lastEffect?
  rw [List.filterMap_append, List.getLast?_append, List.filterMap_cons]
  cases command.effect? key <;> rfl

end Command

namespace Keyspace

/-- The cell of a key after a key has been set. -/
theorem lookup_store (keyspace : Keyspace) (args : List Value) (key : Bytes) :
    (keyspace.store args).2.lookup? key =
      ((Effect.ofStore? args key).map Effect.cell).getD (keyspace.lookup? key) := by
  rcases args with _ | ⟨arg, _ | ⟨value, _ | ⟨extra, args⟩⟩⟩
  · rfl
  · rfl
  · cases hpayload : arg.payload? with
    | none => simp [store, Effect.ofStore?, hpayload]
    | some payload =>
        by_cases hkey : key = payload
        · simp [store, Effect.ofStore?, hpayload, lookup_put, hkey, Effect.cell]
        · simp [store, Effect.ofStore?, hpayload, lookup_put, hkey, Ne.symm hkey]
  · rfl

/-- The cell of a key after keys have been removed. -/
theorem lookup_remove (keyspace : Keyspace) (args : List Value) (key : Bytes) :
    (keyspace.remove args).2.lookup? key =
      ((Effect.ofRemove? args key).map Effect.cell).getD (keyspace.lookup? key) := by
  unfold remove Effect.ofRemove?
  split
  · simp
  · cases hkeys : args.mapM Value.payload? with
    | none => rfl
    | some keys => by_cases hkey : key ∈ keys <;> simp [lookup_deleteMany, hkey, Effect.cell]

/-- The cell of a key after a command. -/
theorem lookup_dispatch (keyspace : Keyspace) (command : Command) (key : Bytes) :
    (keyspace.dispatch command.name command.args).2.lookup? key =
      ((command.effect? key).map Effect.cell).getD (keyspace.lookup? key) := by
  unfold dispatch Command.effect? Command.verb?
  cases hverb : Verb.ofName? command.name with
  | none => rfl
  | some verb =>
      cases verb with
      | ping => rfl
      | get => rfl
      | set => exact keyspace.lookup_store command.args key
      | del => exact keyspace.lookup_remove command.args key

/-- The cell of a key after commands is what the last of those that did something to it
has left. -/
theorem lookup_dispatchAll (keyspace : Keyspace) (commands : List Command) (key : Bytes) :
    (keyspace.dispatchAll commands).lookup? key =
      ((Command.lastEffect? commands key).map Effect.cell).getD (keyspace.lookup? key) := by
  induction commands using List.reverseRecOn with
  | nil => rfl
  | append_singleton commands command ih =>
      rw [dispatchAll_append, Command.lastEffect_concat]
      change ((keyspace.dispatchAll commands).dispatch command.name command.args).2.lookup? key = _
      rw [lookup_dispatch, ih]
      cases command.effect? key <;> rfl

end Keyspace

/-! ## Keys that are read and written -/

namespace Command

/-- The keys on which the reply to a command depends. -/
def readKeys (command : Command) : List Bytes :=
  match command.verb?, command.args with
  | some .get, [arg] => arg.payload?.toList
  | some .del, args => args.filterMap Value.payload?
  | _, _ => []

/-- The keys that a command sets or removes. -/
def writtenKeys (command : Command) : List Bytes :=
  match command.verb?, command.args with
  | some .set, [arg, _] => arg.payload?.toList
  | some .del, args => args.filterMap Value.payload?
  | _, _ => []

/-- A command does nothing to a key that it does not write. -/
theorem effect_of_not_mem {command : Command} {key : Bytes} (hnot : key ∉ command.writtenKeys) :
    command.effect? key = none := by
  unfold writtenKeys at hnot
  unfold effect?
  split
  · rename_i hverb
    unfold Effect.ofStore?
    split
    · rename_i arg value hargs
      simp only [hverb, hargs, Option.mem_toList] at hnot
      exact if_neg hnot
    · rfl
  · rename_i hverb
    unfold Effect.ofRemove?
    split
    · rename_i keys hkeys
      have hargs := Value.payloads_eq_some.mp hkeys
      simp only [hverb, hargs, Value.filterMap_payload] at hnot
      exact if_neg hnot
    · rfl
  · rfl

end Command

namespace Keyspace

variable {keyspace other : Keyspace}

/-- The reply to a command depends only on the cells of the keys that it reads. -/
theorem reply_congr {command : Command}
    (hlookup : ∀ key ∈ command.readKeys, keyspace.lookup? key = other.lookup? key) :
    (keyspace.dispatch command.name command.args).1 =
      (other.dispatch command.name command.args).1 := by
  unfold dispatch
  cases hverb : Verb.ofName? command.name with
  | none => rfl
  | some verb =>
      cases verb with
      | ping => rfl
      | get =>
          change keyspace.fetch command.args = other.fetch command.args
          unfold fetch
          split
          · rename_i arg hargs
            cases arg with
            | bulk key =>
                have hverb' : command.verb? = some .get := hverb
                have hkey := hlookup key (by simp [Command.readKeys, hverb', hargs, Value.payload?])
                simp [Value.payload?, get?, hkey]
            | _ => rfl
          · rfl
      | set =>
          change (keyspace.store command.args).1 = (other.store command.args).1
          unfold store
          split
          · split <;> rfl
          · rfl
      | del =>
          change (keyspace.remove command.args).1 = (other.remove command.args).1
          unfold remove
          split
          · rfl
          · cases hkeys : command.args.mapM Value.payload? with
            | none => rfl
            | some keys =>
                have hvalued : keyspace.valued keys = other.valued keys := by
                  apply Finset.filter_congr
                  intro key hkey
                  have hverb' : command.verb? = some .del := hverb
                  have hnamed : key ∈ command.readKeys := by
                    simp only [Command.readKeys, hverb', Value.payloads_eq_some.mp hkeys,
                      Value.filterMap_payload]
                    exact List.mem_toFinset.mp hkey
                  rw [get?, get?, hlookup key hnamed]
                simp only [deleteMany_count, hvalued]

end Keyspace

end DurableStore
