import DurableStore.Proofs.Keyspace.Effects

/-!
# What the engine remembers

The replies that have been given tell what the keyspace holds.  A value is alive if a
write of it was answered with success, and neither a later write nor a later removal of
its key was.  Reading a key gives its value that is alive, and the keys of the keyspace
are those that have one.  Commands that were refused count for nothing.

Main results:

- Definition `Keyspace.answers`: commands with the replies to them.
- Definition `Answer.Alive`: a value that is alive.
- Theorem `Answer.alive_iff`: the value that is alive is the last effect on its key.
- Structure `Recall` and theorem `Keyspace.dispatchAll_recall`: what the keyspace holds
  after any commands.
-/

namespace DurableStore

/-! ## Answers -/

/-- A command and the reply to it. -/
structure Answer where
  command : Command
  reply : Value
  deriving DecidableEq, Repr

namespace Answer

/-- A write of a value to a key has succeeded. -/
def Sets (answer : Answer) (key : Bytes) (value : Value) : Prop :=
  answer.command.verb? = some .set ∧ answer.reply = Reply.ok ∧
    answer.command.args[0]? = some (.bulk key) ∧ answer.command.args[1]? = some value

/-- A removal of keys, this one among them, has succeeded. -/
def Removes (answer : Answer) (key : Bytes) : Prop :=
  answer.command.verb? = some .del ∧ (∃ count, answer.reply = .integer count) ∧
    .bulk key ∈ answer.command.args

/-- A write to a key or a removal of it has succeeded. -/
def Touches (answer : Answer) (key : Bytes) : Prop :=
  (∃ value, answer.Sets key value) ∨ answer.Removes key

/-- The last write to a key has written this value, and the key has not been removed
since. -/
def Alive (answers : List Answer) (key : Bytes) (value : Value) : Prop :=
  Lasts (fun answer => answer.Sets key value) (fun answer => answer.Touches key) answers

end Answer

namespace Keyspace

/-- Commands that are run one after the other, with the replies to them. -/
def answers (keyspace : Keyspace) : List Command → List Answer
  | [] => []
  | command :: later =>
      ⟨command, (keyspace.dispatch command.name command.args).1⟩ ::
        (keyspace.dispatch command.name command.args).2.answers later

/-- The answers are those to the commands, in order. -/
theorem map_command_answers (keyspace : Keyspace) (commands : List Command) :
    (keyspace.answers commands).map Answer.command = commands := by
  induction commands generalizing keyspace with
  | nil => rfl
  | cons command commands ih => rw [answers, List.map_cons, ih]

/-- An answer is the reply of the keyspace that the commands before it have left. -/
theorem answers_split {keyspace : Keyspace} {commands : List Command} {before after : List Answer}
    {answer : Answer} (hanswers : keyspace.answers commands = before ++ answer :: after) :
    ∃ earlier, before = keyspace.answers earlier ∧
      answer.reply = ((keyspace.dispatchAll earlier).dispatch answer.command.name
        answer.command.args).1 := by
  induction before generalizing keyspace commands with
  | nil =>
      cases commands with
      | nil => cases hanswers
      | cons command commands =>
          cases hanswers
          exact ⟨[], rfl, rfl⟩
  | cons first before ih =>
      cases commands with
      | nil => cases hanswers
      | cons command commands =>
          obtain ⟨hfirst, hrest⟩ := List.cons.inj hanswers
          obtain ⟨earlier, hbefore, hreply⟩ := ih hrest
          exact ⟨command :: earlier, by rw [answers, hfirst, ← hbefore], hreply⟩

end Keyspace

/-! ## The value that is alive -/

namespace Answer

variable {keyspace : Keyspace} {command : Command} {key : Bytes} {value : Value}

/-- The answer to a command says whether it has set a key. -/
theorem sets_iff :
    Answer.Sets ⟨command, (keyspace.dispatch command.name command.args).1⟩ key value ↔
      command.effect? key = some (.set value) := by
  unfold Sets Command.effect? Command.verb? Keyspace.dispatch
  cases hverb : Verb.ofName? command.name with
  | none => simp
  | some verb =>
      cases verb with
      | ping => simp
      | get => simp
      | del => simp [Effect.ofRemove?]; split <;> simp
      | set =>
          simp only [true_and, Keyspace.run]
          rcases hargs : command.args with _ | ⟨arg, _ | ⟨stored, _ | ⟨extra, args⟩⟩⟩
          · simp [Effect.ofStore?]
          · simp [Effect.ofStore?]
          · cases arg <;>
              simp [Effect.ofStore?, Keyspace.store, Value.payload?, Reply.invalidArgument,
                Reply.ok]
          · simp [Effect.ofStore?, Keyspace.store, Reply.wrongArity, Reply.ok]

/-- The answer to a command says whether it has removed a key. -/
theorem removes_iff :
    Answer.Removes ⟨command, (keyspace.dispatch command.name command.args).1⟩ key ↔
      command.effect? key = some .remove := by
  unfold Removes Command.effect? Command.verb? Keyspace.dispatch
  cases hverb : Verb.ofName? command.name with
  | none => simp
  | some verb =>
      cases verb with
      | ping => simp
      | get => simp
      | set => simp [Effect.ofStore?]; split <;> simp
      | del =>
          simp only [true_and, Keyspace.run, Effect.ofRemove?]
          cases hkeys : command.args.mapM Value.payload? with
          | none =>
              have hrefused : (keyspace.remove command.args).1.isError = true := by
                unfold Keyspace.remove
                split
                · rfl
                · rw [hkeys]
                  rfl
              constructor
              · rintro ⟨⟨count, hcount⟩, -⟩
                rw [hcount] at hrefused
                cases hrefused
              · simp
          | some keys =>
              have hargs := Value.payloads_eq_some.mp hkeys
              by_cases hkey : key ∈ keys
              · have hcount : (keyspace.remove command.args).1 =
                    .integer (keyspace.deleteMany keys).1 := by
                  rw [hargs, keyspace.remove_keys (List.ne_nil_of_mem hkey)]
                simp only [hkey, if_true, iff_true]
                exact ⟨⟨_, hcount⟩, hargs ▸ List.mem_map_of_mem hkey⟩
              · simp [hargs, hkey]

/-- The answer to a command says whether it has done something to a key. -/
theorem touches_iff :
    Answer.Touches ⟨command, (keyspace.dispatch command.name command.args).1⟩ key ↔
      (command.effect? key).isSome = true := by
  rw [Touches, removes_iff]
  simp only [sets_iff]
  cases command.effect? key with
  | none => simp
  | some effect => cases effect <;> simp

/-- An answer holds the reply that some keyspace gives to its command. -/
theorem exists_dispatch {commands : List Command} {answer : Answer}
    (hanswer : answer ∈ keyspace.answers commands) : ∃ other : Keyspace,
      answer = ⟨answer.command, (other.dispatch answer.command.name answer.command.args).1⟩ := by
  obtain ⟨before, after, hsplit⟩ := List.append_of_mem hanswer
  obtain ⟨earlier, -, hreply⟩ := Keyspace.answers_split hsplit
  exact ⟨_, by rw [← hreply]⟩

/-- The last effect of commands on a key is the last one of those that were answered. -/
theorem lastEffect_answers (keyspace : Keyspace) (commands : List Command) (key : Bytes) :
    ((keyspace.answers commands).filterMap fun answer => answer.command.effect? key).getLast? =
      Command.lastEffect? commands key := by
  unfold Command.lastEffect?
  conv_rhs => rw [← keyspace.map_command_answers commands, List.filterMap_map]
  rfl

/-- A value is alive exactly if a write of it was the last effect on its key. -/
theorem alive_iff {commands : List Command} :
    Alive (keyspace.answers commands) key value ↔
      Command.lastEffect? commands key = some (.set value) := by
  unfold Alive
  rw [← lastEffect_answers keyspace]
  apply lasts_iff_getLast
  · intro answer hanswer
    obtain ⟨other, hsame⟩ := exists_dispatch hanswer
    rw [hsame, sets_iff]
  · intro answer hanswer
    obtain ⟨other, hsame⟩ := exists_dispatch hanswer
    rw [hsame, touches_iff]

end Answer

/-! ## What the keyspace holds -/

/-- What a keyspace holds after commands have been answered. -/
structure Recall (answers : List Answer) (keyspace : Keyspace) : Prop where
  /-- Reading a key has given the value that was alive. -/
  read : ∀ before answer after key value, answers = before ++ answer :: after →
    answer.command.verb? = some .get → answer.command.args = [.bulk key] →
    Answer.Alive before key value → answer.reply = value
  /-- Reading a key without a value that was alive has given nothing. -/
  missed : ∀ before answer after key, answers = before ++ answer :: after →
    answer.command.verb? = some .get → answer.command.args = [.bulk key] →
    (∀ value, ¬ Answer.Alive before key value) → answer.reply = .null
  /-- The keyspace has as many keys as have a value that is alive. -/
  size : ∃ living : Finset Bytes,
    (∀ key, key ∈ living ↔ ∃ value, Answer.Alive answers key value) ∧
      keyspace.size = living.card
  /-- A key is present exactly if it has a value that is alive. -/
  contains : ∀ key, keyspace.contains key = true ↔ ∃ value, Answer.Alive answers key value
  /-- Removing a key says whether it is present. -/
  delete : ∀ key, (keyspace.delete key).1 = keyspace.contains key
  /-- Removing keys says how many different ones of them are present. -/
  deleteMany : ∀ keys : List Bytes,
    (keyspace.deleteMany keys).1 = (keys.toFinset.filter (keyspace.contains · = true)).card
  /-- No key is present without a value. -/
  valued : ∀ key, keyspace.lookup? key ≠ some none

namespace Keyspace

variable {commands : List Command} {key : Bytes}

/-- The cell of a key holds the value that is alive. -/
theorem lookup_of_alive {value : Value}
    (halive : Answer.Alive (Keyspace.empty.answers commands) key value) :
    (Keyspace.empty.dispatchAll commands).lookup? key = some (some value) := by
  rw [lookup_dispatchAll, Answer.alive_iff.mp halive]
  rfl

/-- A key without a value that is alive has no cell. -/
theorem lookup_of_not_alive
    (hdead : ∀ value, ¬ Answer.Alive (Keyspace.empty.answers commands) key value) :
    (Keyspace.empty.dispatchAll commands).lookup? key = none := by
  rw [lookup_dispatchAll]
  cases heffect : Command.lastEffect? commands key with
  | none => rfl
  | some effect =>
      cases effect with
      | set value => exact absurd (Answer.alive_iff.mpr heffect) (hdead value)
      | remove => rfl

/-- Every key that is present has a value that is alive, which is its cell. -/
theorem alive_of_contains
    (hcontains : (Keyspace.empty.dispatchAll commands).contains key = true) :
    ∃ value, Answer.Alive (Keyspace.empty.answers commands) key value ∧
      (Keyspace.empty.dispatchAll commands).lookup? key = some (some value) := by
  by_contra hnone
  have hlookup : (Keyspace.empty.dispatchAll commands).lookup? key = none := by
    apply lookup_of_not_alive
    intro value halive
    exact hnone ⟨value, halive, lookup_of_alive halive⟩
  simp [contains, hlookup] at hcontains

/-- The keys that are present are those that have a value. -/
theorem isSome_get_dispatchAll (commands : List Command) (key : Bytes) :
    ((Keyspace.empty.dispatchAll commands).get? key).isSome =
      (Keyspace.empty.dispatchAll commands).contains key := by
  by_cases hpresent : (Keyspace.empty.dispatchAll commands).contains key = true
  · obtain ⟨value, -, hlookup⟩ := alive_of_contains hpresent
    simp [get?, contains, hlookup]
  · have hnone : (Keyspace.empty.dispatchAll commands).lookup? key = none := by
      simpa [contains] using hpresent
    simp [get?, contains, hnone]

/-- Removing keys counts those that are present, each of them once. -/
theorem deleteMany_dispatchAll (commands : List Command) (keys : List Bytes) :
    ((Keyspace.empty.dispatchAll commands).deleteMany keys).1 =
      (keys.toFinset.filter ((Keyspace.empty.dispatchAll commands).contains · = true)).card := by
  simp only [deleteMany_count, valued, isSome_get_dispatchAll]

/-- The reply to a command that reads a key is the cell of the key. -/
theorem dispatch_get {command : Command} (keyspace : Keyspace)
    (hverb : command.verb? = some .get) (hargs : command.args = [.bulk key]) :
    (keyspace.dispatch command.name command.args).1 = (keyspace.get? key).getD .null := by
  unfold dispatch
  rw [show Verb.ofName? command.name = some .get from hverb, hargs]
  rfl

/-- Whatever commands are run on the empty keyspace, it holds the values that are alive. -/
theorem dispatchAll_recall (commands : List Command) :
    Recall (Keyspace.empty.answers commands) (Keyspace.empty.dispatchAll commands) := by
  have hcontains : ∀ key, (Keyspace.empty.dispatchAll commands).contains key = true ↔
      ∃ value, Answer.Alive (Keyspace.empty.answers commands) key value := by
    intro key
    constructor
    · intro hpresent
      obtain ⟨value, halive, -⟩ := alive_of_contains hpresent
      exact ⟨value, halive⟩
    · rintro ⟨value, halive⟩
      rw [contains, lookup_of_alive halive]
      rfl
  exact {
    read := by
      intro before answer after key value hanswers hverb hargs halive
      obtain ⟨earlier, rfl, hreply⟩ := answers_split hanswers
      rw [hreply, dispatch_get _ hverb hargs, get?, lookup_of_alive halive]
      rfl
    missed := by
      intro before answer after key hanswers hverb hargs hdead
      obtain ⟨earlier, rfl, hreply⟩ := answers_split hanswers
      rw [hreply, dispatch_get _ hverb hargs, get?, lookup_of_not_alive hdead]
      rfl
    size := by
      refine ⟨(Keyspace.empty.dispatchAll commands).keys.toFinset, ?_, size_eq_card _⟩
      intro key
      rw [List.mem_toFinset, mem_keys, hcontains]
    contains := hcontains
    delete := isSome_get_dispatchAll commands
    deleteMany := deleteMany_dispatchAll commands
    valued := by
      intro key hempty
      have hpresent : (Keyspace.empty.dispatchAll commands).contains key = true := by
        rw [contains, hempty]
        rfl
      obtain ⟨value, -, hlookup⟩ := alive_of_contains hpresent
      rw [hlookup] at hempty
      cases hempty }

/-- A removal that is refused because one of its arguments is not a key removes nothing. -/
example :
    (Keyspace.empty.answers [
      ⟨Bytes.ofString "set", [.bulk [0x6B], .bulk [0x76]], none⟩,
      ⟨Bytes.ofString "DEL", [.bulk [0x6B], .null], none⟩,
      ⟨Bytes.ofString "get", [.bulk [0x6B]], none⟩]).map Answer.reply =
      [Reply.ok, Reply.invalidArgument .del, .bulk [0x76]] := by
  decide +kernel

end Keyspace

end DurableStore
