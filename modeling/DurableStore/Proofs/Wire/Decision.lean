import DurableStore.Proofs.Wire.Grammar
import Mathlib.Data.Finset.Lattice.Fold
import Mathlib.Order.Lattice.Nat

/-!
# When octets are decided

Octets that arrive one by one are too few for a while, and then they are decided:
a value has been read, or they are malformed, and more octets do not change that.
Until then every failure names a length that is still to come.  This module shows
that the largest of these lengths is the very length at which the octets are
decided, so that a failure never asks for too much.

Main results:

- Definition `decidedAt`: the largest length that decoding asks for.
- Theorem `decode_append`: more octets do not change a decision.
- Theorem `tooShort_append`: octets that stay below the length that was asked for
  stay too few.
- Theorem `decode_decidedAt`: octets are decided at this length, and not before.
-/

namespace DurableStore

/-! ## Octets that are too few -/

/-- The failure of a decoding because the input ends early. -/
def DecodeError.EndsEarly (error : DecodeError) : Prop :=
  error.kind = .unexpectedEnd ∨ error.kind = .outOfBounds

/-- The input ends early exactly if the failure names the length it asks for. -/
theorem DecodeError.endsEarly_iff {error : DecodeError} :
    error.EndsEarly ↔ ∃ needed, error.needed? = some needed := by
  rcases error with ⟨path, fault⟩
  cases fault <;> simp [EndsEarly, kind, needed?, Fault.kind, Fault.needed?]

/-- A failure is short if the input ends early. -/
theorem DecodeError.isShort_iff {error : DecodeError} : error.isShort = true ↔ error.EndsEarly := by
  rw [endsEarly_iff, isShort, Option.isSome_iff_exists]

/-- Octets hold no value yet, and are not malformed either. -/
def TooShort (limits : Limits) (octets : Bytes) : Prop :=
  ∃ error, decode limits octets 0 = .error error ∧ error.EndsEarly

/-- The length that decoding asks for, if it asks for more octets. -/
def asked (limits : Limits) (octets : Bytes) : Nat :=
  match decode limits octets 0 with
  | .ok _ => 0
  | .error error => error.needed?.getD 0

/-- The largest length that decoding asks for while octets arrive one by one. -/
def decidedAt (limits : Limits) (octets : Bytes) : Nat :=
  (Finset.range (octets.length + 1)).sup fun count => asked limits (octets.take count)

variable {limits : Limits} {octets more : Bytes}

/-- What a failure asks for is what decoding asks for. -/
theorem asked_of_error {error : DecodeError} {needed : Nat}
    (hdecode : decode limits octets 0 = .error error) (hneeded : error.needed? = some needed) :
    asked limits octets = needed := by
  simp only [asked, hdecode, hneeded, Option.getD_some]

/-- Octets that are decided ask for nothing. -/
theorem asked_eq_zero (hdecided : ¬ TooShort limits octets) : asked limits octets = 0 := by
  unfold asked
  cases hdecode : decode limits octets 0 with
  | ok outcome => rfl
  | error error =>
      have hfinal : ¬ error.EndsEarly := fun hearly => hdecided ⟨error, hdecode, hearly⟩
      rw [DecodeError.endsEarly_iff, not_exists] at hfinal
      have hnone : error.needed? = none := Option.eq_none_iff_forall_ne_some.mpr hfinal
      simp only [hnone, Option.getD_none]

/-- Octets that stay below the length that was asked for are too few. -/
theorem tooShort_append (hlength : (octets ++ more).length < asked limits octets) :
    TooShort limits (octets ++ more) := by
  unfold asked at hlength
  cases hdecode : decode limits octets 0 with
  | ok outcome => simp [hdecode] at hlength
  | error error =>
      cases hneeded : error.needed? with
      | none => simp [hdecode, hneeded] at hlength
      | some needed =>
          simp only [hdecode, hneeded, Option.getD_some] at hlength
          obtain ⟨-, hwaits⟩ := readValue_waits (decode_eq_error.mp hdecode) hneeded
          obtain ⟨later, hread, hmore⟩ := hwaits more (by rwa [Nat.zero_add])
          exact ⟨later, decode_eq_error.mpr hread,
            DecodeError.endsEarly_iff.mpr (Option.isSome_iff_exists.mp hmore)⟩

/-- Octets are too few exactly if decoding asks for more than there are. -/
theorem tooShort_iff : TooShort limits octets ↔ octets.length < asked limits octets := by
  constructor
  · rintro ⟨error, hdecode, hearly⟩
    obtain ⟨needed, hneeded⟩ := DecodeError.endsEarly_iff.mp hearly
    obtain ⟨hfurther, -⟩ := readValue_waits (decode_eq_error.mp hdecode) hneeded
    rwa [asked_of_error hdecode hneeded, ← Nat.zero_add octets.length]
  · intro hasked
    have hshort : TooShort limits (octets ++ []) := tooShort_append (by rwa [List.append_nil])
    rwa [List.append_nil] at hshort

/-! ## Decisions -/

/-- More octets do not change a decision. -/
theorem decode_append (hdecided : ¬ TooShort limits octets) (more : Bytes) :
    decode limits (octets ++ more) 0 = decode limits octets 0 := by
  cases hdecode : decode limits octets 0 with
  | ok outcome =>
      obtain ⟨next, hread, hstop⟩ := decode_eq_ok.mp hdecode
      obtain ⟨used, hsplit, hoffset, hreads⟩ := readValue_reads hread
      rw [List.drop_zero] at hsplit
      refine decode_eq_ok.mpr ⟨⟨0 + used.length, next.rest ++ more⟩, ?_, hoffset.symm.trans hstop⟩
      rw [List.drop_zero, hsplit, List.append_assoc, hreads]
  | error error =>
      have hfinal : error.needed? = none := by
        cases hneeded : error.needed? with
        | none => rfl
        | some needed =>
            exact absurd ⟨error, hdecode, DecodeError.endsEarly_iff.mpr ⟨needed, hneeded⟩⟩ hdecided
      exact decode_eq_error.mpr (readValue_rejects (decode_eq_error.mp hdecode) hfinal more)

/-- A decision on the first octets is the decision on all of them. -/
theorem decode_take {count : Nat} (hdecided : ¬ TooShort limits (octets.take count)) :
    decode limits (octets.take count) 0 = decode limits octets 0 := by
  have hall := decode_append hdecided (octets.drop count)
  rwa [List.take_append_drop, eq_comm] at hall

/-- A value is decided by its own octets. -/
theorem decode_take_stop {value : Value} {stop : Nat}
    (hdecode : decode limits octets 0 = .ok (value, stop)) :
    stop ≤ octets.length ∧ decode limits (octets.take stop) 0 = .ok (value, stop) := by
  obtain ⟨next, hread, hstop⟩ := decode_eq_ok.mp hdecode
  obtain ⟨used, hsplit, hoffset, hreads⟩ := readValue_reads hread
  rw [List.drop_zero] at hsplit
  rw [Nat.zero_add, hstop] at hoffset
  subst hoffset
  rw [hsplit, List.take_left, List.length_append]
  refine ⟨Nat.le_add_right _ _, decode_eq_ok.mpr ⟨⟨0 + used.length, []⟩, ?_, Nat.zero_add _⟩⟩
  have hown := hreads []
  rwa [List.append_nil] at hown

/-! ## The length of a decision -/

/-- No beginning of the octets asks for more. -/
theorem asked_le_decidedAt {count : Nat} (hcount : count ≤ octets.length) :
    asked limits (octets.take count) ≤ decidedAt limits octets :=
  Finset.le_sup (f := fun count => asked limits (octets.take count))
    (Finset.mem_range.mpr (Nat.lt_succ_of_le hcount))

/-- No beginning of octets asks for more than all of them. -/
theorem asked_le_decidedAt_append (octets more : Bytes) :
    asked limits octets ≤ decidedAt limits (octets ++ more) := by
  have hfirst : asked limits ((octets ++ more).take octets.length) ≤
      decidedAt limits (octets ++ more) := asked_le_decidedAt (by simp)
  rwa [List.take_left] at hfirst

/-- Octets are not decided before this length is reached. -/
theorem tooShort_of_lt_decidedAt {count : Nat} (hcount : count ≤ octets.length)
    (hbefore : count < decidedAt limits octets) : TooShort limits (octets.take count) := by
  -- If they were decided, no beginning of them would ask for more.
  by_contra hdecided
  apply Nat.not_le.mpr hbefore
  refine Finset.sup_le fun other _ => ?_
  rcases Nat.lt_or_ge other count with hless | hmore
  · -- A shorter beginning would have asked for more than what decides.
    apply Nat.le_of_not_lt
    intro hasked
    obtain ⟨between, hbetween⟩ : octets.take other <+: octets.take count :=
      List.take_prefix_take_left hless.le
    rw [← hbetween] at hdecided
    refine hdecided (tooShort_append ?_)
    rw [hbetween, List.length_take]
    omega
  · -- A longer beginning is decided as well.
    have hlonger : ¬ TooShort limits (octets.take other) := by
      obtain ⟨between, hbetween⟩ : octets.take count <+: octets.take other :=
        List.take_prefix_take_left hmore
      rintro ⟨error, hdecode, hearly⟩
      rw [← hbetween, decode_append hdecided] at hdecode
      exact hdecided ⟨error, hdecode, hearly⟩
    rw [asked_eq_zero hlonger]
    exact Nat.zero_le count

/-- Octets are decided as soon as this length is reached. -/
theorem not_tooShort_of_decidedAt_le {count : Nat} (hcount : count ≤ octets.length)
    (hreached : decidedAt limits octets ≤ count) : ¬ TooShort limits (octets.take count) := by
  rw [tooShort_iff, List.length_take, Nat.min_eq_left hcount, Nat.not_lt]
  exact (asked_le_decidedAt hcount).trans hreached

/-- A value ends where the octets are decided. -/
theorem stop_eq_decidedAt {value : Value} {stop : Nat}
    (hreached : decidedAt limits octets ≤ octets.length)
    (hdecode : decode limits octets 0 = .ok (value, stop)) : stop = decidedAt limits octets := by
  obtain ⟨hstop, hown⟩ := decode_take_stop hdecode
  apply Nat.le_antisymm
  · -- The value is read at that length, and so ends there or before.
    have hfirst := decode_take (not_tooShort_of_decidedAt_le hreached (Nat.le_refl _))
    obtain ⟨hbehind, -⟩ := decode_take_stop (hfirst.trans hdecode)
    rw [List.length_take] at hbehind
    omega
  · -- The octets of the value are decided.
    apply Nat.le_of_not_lt
    intro hbefore
    obtain ⟨error, hshort, -⟩ := tooShort_of_lt_decidedAt hstop hbefore
    rw [hown] at hshort
    cases hshort

/-- Octets that arrive one by one are too few until they reach a certain length,
and decided from there on: they begin with a value that ends at this length, or
are malformed for a reason that does not change.  A failure before that asks for
more than has arrived, but for no more than what decides any continuation. -/
theorem decode_decidedAt (limits : Limits) (octets : Bytes) :
    (∀ count ≤ octets.length, count < decidedAt limits octets →
      TooShort limits (octets.take count)) ∧
    (∀ count ≤ octets.length, decidedAt limits octets ≤ count →
      ¬ TooShort limits (octets.take count) ∧
      decode limits (octets.take count) 0 = decode limits octets 0 ∧
      ∀ value stop, decode limits octets 0 = .ok (value, stop) →
        stop = decidedAt limits octets) ∧
    ∀ count ≤ octets.length, ∀ error, decode limits (octets.take count) 0 = .error error →
      error.EndsEarly → ∃ needed, error.needed? = some needed ∧ count < needed ∧
        ∀ more, needed ≤ decidedAt limits (octets.take count ++ more) ∧
          ((octets.take count ++ more).length < needed →
            TooShort limits (octets.take count ++ more)) := by
  refine ⟨fun count hcount hbefore => tooShort_of_lt_decidedAt hcount hbefore, ?_, ?_⟩
  · intro count hcount hreached
    have hdecided := not_tooShort_of_decidedAt_le hcount hreached
    exact ⟨hdecided, decode_take hdecided,
      fun value stop hdecode => stop_eq_decidedAt (hreached.trans hcount) hdecode⟩
  · intro count hcount error hdecode hearly
    obtain ⟨needed, hneeded⟩ := DecodeError.endsEarly_iff.mp hearly
    have hasked := asked_of_error hdecode hneeded
    have hfurther := tooShort_iff.mp ⟨error, hdecode, hearly⟩
    rw [List.length_take, Nat.min_eq_left hcount, hasked] at hfurther
    refine ⟨needed, hneeded, hfurther, fun more => ⟨?_, fun hbelow => ?_⟩⟩
    · rw [← hasked]
      exact asked_le_decidedAt_append _ more
    · exact tooShort_append (by rwa [hasked])

end DurableStore
