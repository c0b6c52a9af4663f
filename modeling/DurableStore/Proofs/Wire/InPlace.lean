import DurableStore.Proofs.Wire.Decision
import DurableStore.Proofs.Wire.Offsets

/-!
# Decoding in place

A value that stands somewhere in a buffer can be decoded at its offset, or from
the start of a copy that begins there.  Both ways have the same outcome, apart
from the positions, which differ by the offset.  What is decoded at an offset
depends on the octets of the value alone: neither those before it nor those
behind it matter.

Main results:

- Definition `Agree`: two outcomes differ by their positions only.
- Theorem `decode_drop`: decoding in place agrees with decoding a trimmed copy.
- Theorem `decode_window`: a value is decoded from its own octets.
- Theorem `decode_inPlace`: both, and what happens behind the end of the buffer.
-/

namespace DurableStore

/-! ## Outcomes that differ by their positions -/

/-- Moving the input does not change the class of a cause. -/
@[simp] theorem Fault.kind_shift (distance : Nat) (fault : Fault) :
    (fault.shift distance).kind = fault.kind := by
  cases fault <;> rfl

/-- Moving the input does not change the class of a failure. -/
@[simp] theorem DecodeError.kind_shift (distance : Nat) (error : DecodeError) :
    (error.shift distance).kind = error.kind :=
  Fault.kind_shift distance error.fault

/-- Moving the input moves the length that a failure asks for. -/
theorem DecodeError.needed_shift (distance : Nat) (error : DecodeError) :
    (error.shift distance).needed? = error.needed?.map (· + distance) :=
  Fault.needed_shift distance error.fault

/-- The first outcome is the second one, `distance` octets further: the same value
ends so much further, or a failure of the same class, at the same item, asks for
so much more input if the input ends early. -/
inductive Agree (distance : Nat) :
    Except DecodeError (Value × Nat) → Except DecodeError (Value × Nat) → Prop
  /-- Both yield the same value. -/
  | value (value : Value) (stop : Nat) :
      Agree distance (.ok (value, stop + distance)) (.ok (value, stop))
  /-- Both fail for the same reason. -/
  | failure (inPlace copied : DecodeError) (hkind : inPlace.kind = copied.kind)
      (hpath : inPlace.path = copied.path)
      (hneeded : copied.EndsEarly → ∃ needed, copied.needed? = some needed ∧
        inPlace.needed? = some (needed + distance)) :
      Agree distance (.error inPlace) (.error copied)

/-! ## A trimmed copy -/

variable {limits : Limits} {data : Bytes} {offset : Nat}

/-- Decoding at an offset agrees with decoding a copy that begins there. -/
theorem decode_drop (limits : Limits) (data : Bytes) (offset : Nat) :
    Agree offset (decode limits data offset) (decode limits (data.drop offset) 0) := by
  unfold decode
  rw [List.drop_zero, readValue_moved limits limits.depth offset]
  cases readValue limits limits.depth ⟨0, data.drop offset⟩ with
  | ok outcome => exact .value outcome.1 outcome.2.offset
  | error error =>
      refine .failure (error.shift offset) error (error.kind_shift offset) rfl fun hearly => ?_
      obtain ⟨needed, hneeded⟩ := DecodeError.endsEarly_iff.mp hearly
      exact ⟨needed, hneeded, by rw [error.needed_shift, hneeded, Option.map_some]⟩

/-- No value begins at the end of a buffer or behind it. -/
theorem decode_end (hend : data.length ≤ offset) :
    decode limits data offset = .error (.here (.noValue offset)) := by
  rw [decode_eq_error, List.drop_eq_nil_of_le hend]
  exact readValue_nil limits limits.depth offset

/-! ## The octets of a value -/

/-- Buffers that agree from an offset on, for some octets, hold the same octets
there. -/
theorem Bytes.take_drop_congr (data : Bytes) {other : Bytes} {length : Nat}
    (hsame : ∀ index < length, other[offset + index]? = data[offset + index]?) :
    (other.drop offset).take length = (data.drop offset).take length := by
  apply List.ext_getElem?
  intro index
  rw [List.getElem?_take, List.getElem?_take, List.getElem?_drop, List.getElem?_drop]
  by_cases hinside : index < length
  · rw [if_pos hinside, if_pos hinside, hsame index hinside]
  · rw [if_neg hinside, if_neg hinside]

/-- A value takes at least one octet, and none behind the end of the buffer; it is
decoded at its offset of every buffer that holds the same octets from there to
the offset behind it. -/
theorem decode_window {value : Value} {stop : Nat}
    (hdecode : decode limits data offset = .ok (value, stop)) :
    offset < stop ∧ stop ≤ data.length ∧
      ∀ other : Bytes,
        (∀ index, offset ≤ index → index < stop → other[index]? = data[index]?) →
        decode limits other offset = .ok (value, stop) := by
  obtain ⟨next, hread, hstop⟩ := decode_eq_ok.mp hdecode
  obtain ⟨used, hsplit, hoffset, hreads⟩ := readValue_reads hread
  have hpositive : 0 < used.length := List.length_pos_iff.mpr hreads.ne_nil
  have hlength := congrArg List.length hsplit
  rw [List.length_drop, List.length_append] at hlength
  refine ⟨by omega, by omega, fun other hsame => ?_⟩
  -- The other buffer holds the octets of the value at the same offset.
  have hused : (other.drop offset).take used.length = used := by
    rw [Bytes.take_drop_congr data, hsplit, List.take_left]
    intro index hindex
    exact hsame (offset + index) (by omega) (by omega)
  have hother : other.drop offset = used ++ (other.drop offset).drop used.length := by
    have hwhole := List.take_append_drop used.length (other.drop offset)
    rwa [hused, eq_comm] at hwhole
  have hagain := hreads ((other.drop offset).drop used.length)
  rw [← hother] at hagain
  exact decode_eq_ok.mpr ⟨_, hagain, hoffset.symm.trans hstop⟩

/-- Decoding at an offset agrees with decoding a trimmed copy; behind the end of the
buffer both fail because the input ends early; and a value that is decoded takes
some octets of the buffer from the offset on, and is decoded there whatever the
others are. -/
theorem decode_inPlace (limits : Limits) (data : Bytes) (offset : Nat) :
    Agree offset (decode limits data offset) (decode limits (data.drop offset) 0) ∧
    (data.length ≤ offset → ∃ inPlace copied,
      decode limits data offset = .error inPlace ∧
      decode limits (data.drop offset) 0 = .error copied ∧
      inPlace.kind = .unexpectedEnd ∧ copied.kind = .unexpectedEnd) ∧
    ∀ value stop, decode limits data offset = .ok (value, stop) →
      offset < stop ∧ stop ≤ data.length ∧
        ∀ other : Bytes,
          (∀ index, offset ≤ index → index < stop → other[index]? = data[index]?) →
          decode limits other offset = .ok (value, stop) := by
  refine ⟨decode_drop limits data offset, fun hend => ?_, fun value stop => decode_window⟩
  have hcopy : (data.drop offset).length ≤ 0 := by
    rw [List.length_drop]
    omega
  exact ⟨_, _, decode_end hend, decode_end hcopy, rfl, rfl⟩

end DurableStore
