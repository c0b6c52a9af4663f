import DurableStore.Proofs.Engine
import DurableStore.Proofs.Keyspace.Effects

/-!
# Which commands change the keyspace

The name of a command says whether it is a write, its arguments say whether the write is
accepted, and its reply says whether it was.  All three agree: the keyspace changes only
through a write that was accepted, which is the kind of command that goes to the log, and
then in the cells of the keys that are named and in no others.

Main results:

- Theorems `Keyspace.store_cases` and `Keyspace.remove_cases`: a write is accepted or
  refused, and what it leaves in either case.
- Structure `WriteLaw` and theorem `Keyspace.dispatch_writeLaw`: what a command does to
  the keyspace.
-/

namespace DurableStore

/-- An argument names a key: it is a bulk string that is present. -/
def Value.IsKey (arg : Value) : Prop :=
  ∃ key, arg = .bulk key

/-- An argument names a key exactly if it has a payload. -/
theorem Value.not_isKey_iff {arg : Value} : ¬ arg.IsKey ↔ arg.payload? = none := by
  cases arg <;> simp [IsKey, payload?]

/-- Some argument names no key exactly if the arguments are not all payloads. -/
theorem Value.exists_not_isKey_iff {args : List Value} :
    (∃ arg ∈ args, ¬ arg.IsKey) ↔ args.mapM Value.payload? = none := by
  induction args with
  | nil => simp
  | cons arg args ih =>
      rw [List.exists_mem_cons_iff, ih, not_isKey_iff, List.mapM_cons]
      cases arg.payload? <;> cases args.mapM payload? <;> simp

/-- The names of writes are those that stand for setting a key or for removing keys. -/
theorem Verb.nameIsWrite_iff {name : Bytes} :
    nameIsWrite name = true ↔ ofName? name = some .set ∨ ofName? name = some .del := by
  unfold nameIsWrite
  cases ofName? name with
  | none => simp
  | some verb => cases verb <;> simp [isWrite]

namespace Keyspace

/-! ## Writes that are accepted or refused -/

/-- Setting a key is accepted if there are two arguments, the first of which names the
key, and refused otherwise. -/
theorem store_cases (keyspace : Keyspace) (args : List Value) :
    (∃ key value, args = [.bulk key, value] ∧
        keyspace.store args = (Reply.ok, keyspace.put key (some value))) ∨
      (args.length ≠ 2 ∨ ∃ arg, args.head? = some arg ∧ ¬ arg.IsKey) ∧
        (keyspace.store args).1.isError = true := by
  rcases args with _ | ⟨arg, _ | ⟨value, _ | ⟨third, args⟩⟩⟩
  · exact .inr ⟨.inl (by simp), rfl⟩
  · exact .inr ⟨.inl (by simp), rfl⟩
  · cases arg with
    | bulk key => exact .inl ⟨key, value, rfl, rfl⟩
    | _ => exact .inr ⟨.inr ⟨_, rfl, Value.not_isKey_iff.mpr rfl⟩, rfl⟩
  · exact .inr ⟨.inl (by simp), rfl⟩

/-- Removing keys is accepted if there are arguments and all of them name keys, and
refused otherwise. -/
theorem remove_cases (keyspace : Keyspace) (args : List Value) :
    (∃ keys : List Bytes, keys ≠ [] ∧ args = keys.map .bulk ∧
        keyspace.remove args =
          (.integer (keyspace.deleteMany keys).1, (keyspace.deleteMany keys).2)) ∨
      (args = [] ∨ ∃ arg ∈ args, ¬ arg.IsKey) ∧
        (keyspace.remove args).1.isError = true := by
  cases args with
  | nil => exact .inr ⟨.inl rfl, rfl⟩
  | cons arg args =>
      cases hkeys : (arg :: args).mapM Value.payload? with
      | none =>
          refine .inr ⟨.inr (Value.exists_not_isKey_iff.mpr hkeys), ?_⟩
          simp only [remove, hkeys]
          rfl
      | some keys =>
          have hargs := Value.payloads_eq_some.mp hkeys
          have hnonempty : keys ≠ [] := by
            rintro rfl
            cases hargs
          exact .inl ⟨keys, hnonempty, hargs, hargs ▸ keyspace.remove_keys hnonempty⟩

/-- Setting a key is answered with an error exactly if there are not two arguments or the
first one names no key. -/
theorem isError_store_iff (keyspace : Keyspace) (args : List Value) :
    (keyspace.store args).1.isError = true ↔
      args.length ≠ 2 ∨ ∃ arg, args.head? = some arg ∧ ¬ arg.IsKey := by
  rcases keyspace.store_cases args with ⟨key, value, rfl, hstore⟩ | ⟨hmisused, herror⟩
  · rw [hstore]
    simp [Reply.ok, Value.isError, Value.IsKey]
  · exact iff_of_true herror hmisused

/-- Removing keys is answered with an error exactly if there are no arguments or one of
them names no key. -/
theorem isError_remove_iff (keyspace : Keyspace) (args : List Value) :
    (keyspace.remove args).1.isError = true ↔ args = [] ∨ ∃ arg ∈ args, ¬ arg.IsKey := by
  rcases keyspace.remove_cases args with ⟨keys, hkeys, rfl, hremove⟩ | ⟨hmisused, herror⟩
  · rw [hremove]
    simp [Value.isError, Value.IsKey, hkeys]
  · exact iff_of_true herror hmisused

end Keyspace

/-! ## What a command does to the keyspace -/

/-- What running a command of a given name with given arguments, which has been answered
with a reply and has left a keyspace, has done. -/
structure WriteLaw (keyspace : Keyspace) (name : Bytes) (args : List Value)
    (answer : Value × Keyspace) : Prop where
  /-- A command that is no write changes nothing. -/
  reading : Verb.ofName? name ≠ some .set → Verb.ofName? name ≠ some .del →
    answer.2 = keyspace
  /-- A command that is answered with an error changes nothing. -/
  refused : answer.1.isError = true → answer.2 = keyspace
  /-- Setting a key is answered with an error exactly if there are not two arguments or the
  first one names no key. -/
  set_refused_iff : Verb.ofName? name = some .set →
    (answer.1.isError = true ↔
      args.length ≠ 2 ∨ ∃ arg, args.head? = some arg ∧ ¬ arg.IsKey)
  /-- Removing keys is answered with an error exactly if there are no arguments or one of
  them names no key. -/
  del_refused_iff : Verb.ofName? name = some .del →
    (answer.1.isError = true ↔ args = [] ∨ ∃ arg ∈ args, ¬ arg.IsKey)
  /-- Otherwise the key that the first argument names has been set to the second one, and
  every other key has been left alone. -/
  set_accepted : Verb.ofName? name = some .set → answer.1.isError = false →
    ∃ key value, args = [.bulk key, value] ∧ answer.2.lookup? key = some (some value) ∧
      ∀ other, other ≠ key → answer.2.lookup? other = keyspace.lookup? other
  /-- Otherwise the keys that the arguments name have been removed, and every other key has
  been left alone. -/
  del_accepted : Verb.ofName? name = some .del → answer.1.isError = false →
    ∃ keys : List Bytes, args = keys.map .bulk ∧
      (∀ key ∈ keys, answer.2.lookup? key = none) ∧
      ∀ other, other ∉ keys → answer.2.lookup? other = keyspace.lookup? other
  /-- The keyspace changes only through a write that is not answered with an error. -/
  changed : answer.2 ≠ keyspace →
    Verb.nameIsWrite name = true ∧ answer.1.isError = false
  /-- These writes are the commands that go to the log. -/
  logged_iff : Server.isLogged name answer.1 = true ↔
    (Verb.ofName? name = some .set ∨ Verb.ofName? name = some .del) ∧ answer.1.isError = false

namespace Keyspace

variable {keyspace : Keyspace} {name : Bytes} {args : List Value}

/-- A command whose name is that of an existing command runs it. -/
theorem dispatch_eq_run {verb : Verb} (hverb : Verb.ofName? name = some verb) :
    keyspace.dispatch name args = keyspace.run verb args := by
  rw [dispatch, hverb]

/-- A command that is no write leaves the keyspace alone. -/
theorem dispatch_reading (hset : Verb.ofName? name ≠ some .set)
    (hdel : Verb.ofName? name ≠ some .del) : (keyspace.dispatch name args).2 = keyspace := by
  apply dispatch_unchanged
  have hname : Verb.nameIsWrite name = false := by
    rw [← Bool.not_eq_true, Verb.nameIsWrite_iff, not_or]
    exact ⟨hset, hdel⟩
  rw [Server.isLogged, hname, Bool.false_and]

/-- A command that is answered with an error leaves the keyspace alone. -/
theorem dispatch_refused (herror : (keyspace.dispatch name args).1.isError = true) :
    (keyspace.dispatch name args).2 = keyspace := by
  apply dispatch_unchanged
  rw [Server.isLogged, herror, Bool.not_true, Bool.and_false]

/-- A command that changes the keyspace goes to the log. -/
theorem isLogged_of_dispatch (hchanged : (keyspace.dispatch name args).2 ≠ keyspace) :
    Server.isLogged name (keyspace.dispatch name args).1 = true := by
  by_contra hlogged
  exact hchanged (dispatch_unchanged (by simpa using hlogged))

/-- A command does to the keyspace what its name, its arguments and its reply say. -/
theorem dispatch_writeLaw (keyspace : Keyspace) (name : Bytes) (args : List Value) :
    WriteLaw keyspace name args (keyspace.dispatch name args) := by
  constructor
  case reading => exact dispatch_reading
  case refused => exact dispatch_refused
  case set_refused_iff =>
    intro hverb
    rw [dispatch_eq_run hverb]
    exact keyspace.isError_store_iff args
  case del_refused_iff =>
    intro hverb
    rw [dispatch_eq_run hverb]
    exact keyspace.isError_remove_iff args
  case set_accepted =>
    intro hverb haccepted
    rw [dispatch_eq_run hverb, run] at haccepted ⊢
    rcases keyspace.store_cases args with ⟨key, value, hargs, hstore⟩ | ⟨-, herror⟩
    · refine ⟨key, value, hargs, ?_, fun other hother => ?_⟩
      · rw [hstore, lookup_put, if_pos rfl]
      · rw [hstore, lookup_put, if_neg hother]
    · rw [herror] at haccepted
      cases haccepted
  case del_accepted =>
    intro hverb haccepted
    rw [dispatch_eq_run hverb, run] at haccepted ⊢
    rcases keyspace.remove_cases args with ⟨keys, -, hargs, hremove⟩ | ⟨-, herror⟩
    · refine ⟨keys, hargs, fun key hkey => ?_, fun other hother => ?_⟩
      · rw [hremove, lookup_deleteMany, if_pos hkey]
      · rw [hremove, lookup_deleteMany, if_neg hother]
    · rw [herror] at haccepted
      cases haccepted
  case changed =>
    intro hchanged
    have hlogged := isLogged_of_dispatch hchanged
    simpa [Server.isLogged] using hlogged
  case logged_iff =>
    unfold Server.isLogged
    rw [Bool.and_eq_true, Bool.not_eq_true', Verb.nameIsWrite_iff]

end Keyspace

end DurableStore
