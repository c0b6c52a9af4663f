import DurableStore.Engine
import DurableStore.Proofs.Text.Validity
import DurableStore.Wire.Encode

/-!
# Requests and commands

A value is a request exactly if it is an array of present bulk strings, at
least one of them.  A request can always be written.  Running a list of requests
means running the commands among them whose names are known.

Main results:

- Theorem `Command.parse_eq_ok`: the shape of a request.
- Theorem `Command.encodeFault_of_parse`: a request has a written form.
- Theorem `Command.request_eq_ok`: the request that plain arguments make.
- Theorem `Keyspace.dispatchAll_append`: commands run one after the other.
-/

namespace DurableStore

/-- All arguments are present bulk strings exactly if they have these payloads. -/
theorem Value.payloads_eq_some {args : List Value} {payloads : List Bytes} :
    args.mapM Value.payload? = some payloads ↔ args = payloads.map .bulk := by
  induction args generalizing payloads with
  | nil => simp [eq_comm]
  | cons arg args ih =>
      rw [List.mapM_cons]
      cases payloads with
      | nil => cases arg <;> cases args.mapM Value.payload? <;> simp [Value.payload?]
      | cons payload payloads =>
          rw [List.map_cons, List.cons.injEq, ← ih]
          cases arg <;> cases args.mapM Value.payload? <;> simp [Value.payload?]

namespace Command

/-! ## The shape of a request -/

/-- No item is wrong exactly if all of them are present bulk strings. -/
theorem firstBad_eq_none {items : List Value} :
    firstBad? items = none ↔ ∃ payloads : List Bytes, items = payloads.map .bulk := by
  unfold firstBad?
  rw [List.findIdx?_eq_none_iff]
  constructor
  · intro hgood
    induction items with
    | nil => exact ⟨[], rfl⟩
    | cons item items ih =>
        obtain ⟨payloads, rfl⟩ := ih fun other hother => hgood other (List.mem_cons_of_mem _ hother)
        have hitem := hgood item List.mem_cons_self
        cases item with
        | bulk payload => exact ⟨payload :: payloads, rfl⟩
        | _ => simp [Value.payload?] at hitem
  · rintro ⟨payloads, rfl⟩ item hitem
    rcases List.mem_map.mp hitem with ⟨payload, -, rfl⟩
    rfl

/-- A request is an array of a name and arguments, all of them present bulk
strings. -/
theorem parse_eq_ok {value : Value} {command : Command} :
    parse value = .ok command ↔ ∃ (name : Bytes) (payloads : List Bytes),
      value = .array (.bulk name :: payloads.map .bulk) ∧
        command = ⟨name, payloads.map .bulk, some value⟩ := by
  constructor
  · intro hparse
    unfold parse at hparse
    split at hparse
    · cases hparse
    · rename_i items
      cases hbad : firstBad? items with
      | some index =>
          rw [hbad] at hparse
          cases hparse
      | none =>
          rcases firstBad_eq_none.mp hbad with ⟨payloads, rfl⟩
          rw [hbad] at hparse
          cases payloads with
          | nil => cases hparse
          | cons name payloads =>
              cases hparse
              exact ⟨name, payloads, rfl, rfl⟩
    · cases hparse
  · rintro ⟨name, payloads, rfl, rfl⟩
    have hgood : firstBad? (.bulk name :: payloads.map .bulk) = none :=
      firstBad_eq_none.mpr ⟨name :: payloads, rfl⟩
    simp only [parse, hgood, Value.payload?, Option.getD_some]

/-- A request is an array. -/
theorem kind_of_parse {value : Value} {command : Command} (hparse : parse value = .ok command) :
    value.kind = .array := by
  rcases parse_eq_ok.mp hparse with ⟨name, payloads, rfl, -⟩
  rfl

/-- Present bulk strings can be written. -/
theorem itemsFault_map_bulk (payloads : List Bytes) :
    Value.itemsFault? (payloads.map .bulk) = none := by
  induction payloads with
  | nil => rfl
  | cons payload payloads ih =>
      rw [List.map_cons, Value.itemsFault?, Value.encodeFault?]
      exact ih

/-- A request has a written form. -/
theorem encodeFault_of_parse {value : Value} {command : Command}
    (hparse : parse value = .ok command) : value.encodeFault? = none := by
  rcases parse_eq_ok.mp hparse with ⟨name, payloads, rfl, -⟩
  exact itemsFault_map_bulk (name :: payloads)

/-! ## Requests from plain arguments -/

/-- Plain arguments make a request if the name is the UTF-8 form of a string and every
argument is carried by some octets; the request consists of the name and these octets. -/
theorem request_eq_ok {name : Bytes} {args : List Argument} {request : Value} :
    Command.request name args = .ok request ↔ (∃ s : String, name = Bytes.ofString s) ∧
      ∃ payloads, args.mapM Argument.payload = .ok payloads ∧
        request = .array (.bulk name :: payloads.map .bulk) := by
  unfold Command.request
  cases hname : Text.validOctets name with
  | error run =>
      have hinvalid : ¬ ∃ s : String, name = Bytes.ofString s := fun hvalid => by
        rw [Text.validOctets_eq_ok.mpr ⟨rfl, hvalid⟩] at hname
        cases hname
      exact ⟨nofun, fun hrequest => absurd hrequest.1 hinvalid⟩
  | ok octets =>
      obtain ⟨rfl, hvalid⟩ := Text.validOctets_eq_ok.mp hname
      cases hpayloads : args.mapM Argument.payload with
      | error run => exact ⟨nofun, nofun⟩
      | ok payloads => simp [hvalid, bind, Except.bind, pure, Except.pure, eq_comm]

/-! ## Known commands -/

/-- The command that a value requests, if there is a command of its name. -/
def known? (value : Value) : Option Command :=
  match parse value with
  | .error _ => none
  | .ok command => if command.verb?.isSome then some command else none

/-- The known commands among values, in order. -/
def knownAmong (values : List Value) : List Command :=
  values.filterMap known?

/-- The known commands among values and one more. -/
theorem knownAmong_cons (value : Value) (values : List Value) :
    knownAmong (value :: values) = (known? value).toList ++ knownAmong values := by
  unfold knownAmong
  rw [List.filterMap_cons]
  cases known? value <;> rfl

/-- The known commands among values and later ones. -/
theorem knownAmong_append (values later : List Value) :
    knownAmong (values ++ later) = knownAmong values ++ knownAmong later :=
  List.filterMap_append

end Command

namespace Keyspace

/-- Run commands one after the other, whatever they answer. -/
def dispatchAll (keyspace : Keyspace) (commands : List Command) : Keyspace :=
  commands.foldl (fun keyspace command => (keyspace.dispatch command.name command.args).2) keyspace

/-- Running commands goes on from what the commands before them have left. -/
theorem dispatchAll_append (keyspace : Keyspace) (commands later : List Command) :
    keyspace.dispatchAll (commands ++ later) =
      (keyspace.dispatchAll commands).dispatchAll later :=
  List.foldl_append

end Keyspace

end DurableStore
