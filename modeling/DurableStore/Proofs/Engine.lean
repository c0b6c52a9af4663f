import DurableStore.Proofs.Requests
import DurableStore.Server.Basic

/-!
# What commands change

Only a write that was accepted changes the keyspace, and only such a write goes
to the log.

Main results:

- Theorem `Keyspace.dispatch_unchanged`: any other command leaves the keyspace
  as it is.
-/

namespace DurableStore

namespace Keyspace

/-- A write to a key changes the keyspace only if it is accepted. -/
theorem store_unchanged {keyspace : Keyspace} {args : List Value}
    (herror : (keyspace.store args).1.isError = true) : (keyspace.store args).2 = keyspace := by
  unfold store at herror ⊢
  split
  · split
    · rename_i key hkey
      simp [hkey, Reply.ok, Value.isError] at herror
    · rfl
  · rfl

/-- A removal of keys changes the keyspace only if it is accepted. -/
theorem remove_unchanged {keyspace : Keyspace} {args : List Value}
    (herror : (keyspace.remove args).1.isError = true) : (keyspace.remove args).2 = keyspace := by
  unfold remove at herror ⊢
  split
  · rfl
  · split
    · rename_i hargs keys hkeys
      simp [hkeys, Value.isError] at herror
    · rfl

/-- A command that does not go to the log leaves the keyspace as it is. -/
theorem dispatch_unchanged {keyspace : Keyspace} {name : Bytes} {args : List Value}
    (hlogged : Server.isLogged name (keyspace.dispatch name args).1 = false) :
    (keyspace.dispatch name args).2 = keyspace := by
  unfold Server.isLogged Verb.nameIsWrite at hlogged
  unfold dispatch at hlogged ⊢
  cases hverb : Verb.ofName? name with
  | none => rfl
  | some verb =>
      simp only [hverb] at hlogged ⊢
      cases verb with
      | ping => rfl
      | get => rfl
      | set =>
          refine store_unchanged ?_
          simpa [Verb.isWrite, run] using hlogged
      | del =>
          refine remove_unchanged ?_
          simpa [Verb.isWrite, run] using hlogged

end Keyspace

/-- Writing to the log leaves keyspace and limits as they are, and the reply. -/
theorem Server.record_frame (server : Server) (request reply : Value) :
    (server.record request reply).server.keyspace = server.keyspace ∧
      (server.record request reply).server.limits = server.limits ∧
      (server.record request reply).reply = reply := by
  unfold Server.record
  split
  · exact ⟨rfl, rfl, rfl⟩
  · split
    · exact ⟨rfl, rfl, rfl⟩
    · split <;> exact ⟨rfl, rfl, rfl⟩

/-- A command that goes to the log is known. -/
theorem Server.verb_of_isLogged {command : Command} {reply : Value}
    (hlogged : Server.isLogged command.name reply = true) : command.verb?.isSome = true := by
  unfold Server.isLogged Verb.nameIsWrite at hlogged
  unfold Command.verb?
  cases hverb : Verb.ofName? command.name with
  | none => simp [hverb] at hlogged
  | some verb => rfl

end DurableStore
