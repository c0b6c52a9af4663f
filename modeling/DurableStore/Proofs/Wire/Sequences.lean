import DurableStore.Proofs.Wire.Offsets
import DurableStore.Proofs.Wire.RoundTrip

/-!
# Sequences of values

Every octet string divides in one way into the octets of values, one behind the
other, and a rest that does not begin with a value.  The division grows with the
string: octets that are added behind it leave the values found so far as they
are, and concern the rest alone.

Main results:

- Structure `Splits`: the division of an octet string.
- Theorems `exists_splits` and `Splits.unique`: there is exactly one.
- Theorem `Splits.extend`: how it grows.
- Theorem `Splits.decodeAll`: decoding a whole string finds its division.
- Theorem `decode_stopAfter`: decoding a whole string is decoding one value behind
  the other.
- Theorem `Value.written_holds`: the written form of a value that fits is a
  record of it.
-/

namespace DurableStore

/-! ## Records -/

/-- A value together with the octets it was written in. -/
structure Record where
  value : Value
  octets : Bytes

namespace Record

/-- The octets of a record hold its value, whatever follows them. -/
def Holds (limits : Limits) (record : Record) : Prop :=
  Reads (readValue limits limits.depth) 0 record.octets record.value

/-- The octets of records one behind the other. -/
def joined (records : List Record) : Bytes :=
  records.flatMap octets

/-- The value of a record with the number of its octets. -/
def sized (record : Record) : Value × Nat :=
  (record.value, record.octets.length)

/-- The values of records, each with the offset behind it, if the first record
begins at `offset`. -/
def placed : Nat → List Record → List (Value × Nat)
  | _, [] => []
  | offset, record :: rest =>
      (record.value, offset + record.octets.length) ::
        placed (offset + record.octets.length) rest

@[simp] theorem joined_nil : joined [] = [] :=
  rfl

@[simp] theorem joined_cons (record : Record) (records : List Record) :
    joined (record :: records) = record.octets ++ joined records :=
  rfl

@[simp] theorem joined_append (records later : List Record) :
    joined (records ++ later) = joined records ++ joined later :=
  List.flatMap_append

/-- Placing records does not change their values. -/
theorem map_fst_placed (offset : Nat) (records : List Record) :
    (placed offset records).map Prod.fst = records.map value := by
  induction records generalizing offset with
  | nil => rfl
  | cons record records ih => simp [placed, ih]

/-- The first of some records stand where they stand without the others. -/
theorem take_placed (offset count : Nat) (records : List Record) :
    (placed offset records).take count = placed offset (records.take count) := by
  induction records generalizing offset count with
  | nil => simp [placed]
  | cons record records ih =>
      cases count with
      | zero => rfl
      | succ count => simp only [placed, List.take_succ_cons, ih]

/-- A record that follows others is placed behind them. -/
theorem placed_append_cons (offset : Nat) (before : List Record) (record : Record)
    (after : List Record) :
    (placed offset (before ++ record :: after))[before.length]? =
      some (record.value, offset + (joined before).length + record.octets.length) := by
  induction before generalizing offset with
  | nil => simp [placed]
  | cons first before ih =>
      rw [List.cons_append, placed, List.length_cons, List.getElem?_cons_succ, ih, joined_cons,
        List.length_append, Nat.add_assoc offset]

/-- The last record ends behind the octets of all of them. -/
theorem getLast_placed (offset : Nat) (records : List Record) :
    (((placed offset records).getLast?).map Prod.snd).getD offset =
      offset + (joined records).length := by
  induction records generalizing offset with
  | nil => rfl
  | cons record records ih =>
      have hrest := ih (offset + record.octets.length)
      rw [placed, List.getLast?_cons, joined_cons, List.length_append, ← Nat.add_assoc, ← hrest]
      cases (placed (offset + record.octets.length) records).getLast? <;> rfl

end Record

open Record

/-! ## The division of an octet string -/

/-- Octets divide into records and a rest that does not begin with a value. -/
structure Splits (limits : Limits) (data : Bytes) (records : List Record) (rest : Bytes) :
    Prop where
  partition : data = joined records ++ rest
  holds : ∀ record ∈ records, record.Holds limits
  stops : ∃ error, readValue limits limits.depth ⟨0, rest⟩ = .error error

/-- Why octets are not the beginning of a value, if no continuation of them
is. -/
def obstacle? (limits : Limits) (octets : Bytes) : Option DecodeError :=
  match readValue limits limits.depth ⟨0, octets⟩ with
  | .ok _ => none
  | .error error => if error.isShort then none else some error

variable {limits : Limits} {data rest more : Bytes} {records later : List Record}

/-- An obstacle is an error that is not mended by more octets. -/
theorem obstacle_eq_some {error : DecodeError} :
    obstacle? limits data = some error ↔
      readValue limits limits.depth ⟨0, data⟩ = .error error ∧ error.isShort = false := by
  unfold obstacle?
  cases readValue limits limits.depth ⟨0, data⟩ with
  | ok outcome => simp
  | error found =>
      simp only [Except.error.injEq]
      by_cases hshort : found.isShort = true
      · rw [if_pos hshort]
        constructor
        · intro hnone
          cases hnone
        · rintro ⟨rfl, hfinal⟩
          rw [hshort] at hfinal
          cases hfinal
      · rw [if_neg hshort, Option.some.injEq]
        constructor
        · rintro rfl
          exact ⟨rfl, by simpa using hshort⟩
        · exact fun hsame => hsame.1

/-- More octets do not remove an obstacle. -/
theorem obstacle_append {error : DecodeError} (hobstacle : obstacle? limits data = some error)
    (more : Bytes) : obstacle? limits (data ++ more) = some error := by
  rcases obstacle_eq_some.mp hobstacle with ⟨hread, hfinal⟩
  have hneeded : error.needed? = none := by
    simpa [DecodeError.isShort] using hfinal
  exact obstacle_eq_some.mpr ⟨readValue_rejects hread hneeded more, hfinal⟩

/-- Octets that are too few have no obstacle. -/
theorem obstacle_eq_none {error : DecodeError}
    (hread : readValue limits limits.depth ⟨0, data⟩ = .error error)
    (hshort : error.isShort = true) : obstacle? limits data = none := by
  simp only [obstacle?, hread, if_pos hshort]

/-- Where decoding stops without an obstacle, the octets are too few. -/
theorem isShort_of_obstacle_eq_none {error : DecodeError}
    (hread : readValue limits limits.depth ⟨0, data⟩ = .error error)
    (hnone : obstacle? limits data = none) : error.isShort = true := by
  cases hshort : error.isShort with
  | true => rfl
  | false => rw [obstacle_eq_some.mpr ⟨hread, hshort⟩] at hnone; cases hnone

namespace Splits

/-- Octets that do not begin with a value divide into no records. -/
theorem none_of_error {error : DecodeError}
    (hread : readValue limits limits.depth ⟨0, data⟩ = .error error) : Splits limits data [] data :=
  ⟨rfl, by simp, error, hread⟩

/-- Records in front of a divided string extend the division. -/
theorem prepend (hrecords : ∀ record ∈ records, record.Holds limits)
    (hsplits : Splits limits data later rest) :
    Splits limits (joined records ++ data) (records ++ later) rest where
  partition := by rw [hsplits.partition, joined_append, List.append_assoc]
  holds record hmem := (List.mem_append.mp hmem).elim (hrecords record) (hsplits.holds record)
  stops := hsplits.stops

/-- A record in front of a divided string extends the division. -/
theorem cons {record : Record} (hrecord : record.Holds limits)
    (hsplits : Splits limits data later rest) :
    Splits limits (record.octets ++ data) (record :: later) rest := by
  have hrecords : ∀ other ∈ [record], other.Holds limits := by
    intro other hother
    rw [List.mem_singleton.mp hother]
    exact hrecord
  simpa using hsplits.prepend hrecords

/-- Octets behind a divided string extend the division of the rest. -/
theorem extend (hsplits : Splits limits data records rest) {last : Bytes}
    (hmore : Splits limits (rest ++ more) later last) :
    Splits limits (data ++ more) (records ++ later) last := by
  rw [hsplits.partition, List.append_assoc]
  exact hmore.prepend hsplits.holds

/-- Octets behind an obstacle belong to the rest. -/
theorem extend_of_obstacle (hsplits : Splits limits data records rest) {error : DecodeError}
    (hobstacle : obstacle? limits rest = some error) (more : Bytes) :
    Splits limits (data ++ more) records (rest ++ more) := by
  rcases obstacle_eq_some.mp (obstacle_append hobstacle more) with ⟨hread, -⟩
  have hmore := hsplits.extend (none_of_error hread)
  rwa [List.append_nil] at hmore

/-- The division of a string that begins with a record begins with it. -/
theorem head_eq {record : Record} (hrecord : record.Holds limits)
    (hsplits : Splits limits (record.octets ++ data) records rest) :
    ∃ others, records = record :: others ∧ Splits limits data others rest := by
  have hread := hrecord data
  cases records with
  | nil =>
      rcases hsplits.stops with ⟨error, hstop⟩
      have hrest := hsplits.partition
      rw [joined_nil, List.nil_append] at hrest
      rw [← hrest, hread] at hstop
      cases hstop
  | cons first others =>
      have hfirst := hsplits.holds first List.mem_cons_self (joined others ++ rest)
      have hpartition := hsplits.partition
      rw [joined_cons, List.append_assoc] at hpartition
      rw [hpartition, hfirst] at hread
      simp only [Except.ok.injEq, Prod.mk.injEq, Cursor.mk.injEq, Nat.zero_add] at hread
      rcases hread with ⟨hvalue, hlength, hdata⟩
      rw [hdata] at hpartition
      have hoctets := List.append_cancel_right hpartition
      refine ⟨others, ?_, hdata.symm, fun other hother => ?_, hsplits.stops⟩
      · cases first
        cases record
        simp_all
      · exact hsplits.holds other (List.mem_cons_of_mem _ hother)

/-- An octet string divides in only one way. -/
theorem unique {records' : List Record} {rest' : Bytes}
    (hsplits : Splits limits data records rest) (hother : Splits limits data records' rest') :
    records = records' ∧ rest = rest' := by
  induction records generalizing data records' with
  | nil =>
      rcases hsplits.stops with ⟨error, hstop⟩
      have hdata := hsplits.partition
      rw [joined_nil, List.nil_append] at hdata
      subst hdata
      cases records' with
      | nil => exact ⟨rfl, by simpa using hother.partition⟩
      | cons first others =>
          have hfirst := hother.holds first List.mem_cons_self (joined others ++ rest')
          rw [hother.partition, joined_cons, List.append_assoc, hfirst] at hstop
          cases hstop
  | cons record records ih =>
      have hdata := hsplits.partition
      rw [joined_cons, List.append_assoc] at hdata
      subst hdata
      have hrecord := hsplits.holds record List.mem_cons_self
      rcases head_eq hrecord hsplits with ⟨others, hothers, hmine⟩
      rcases head_eq hrecord hother with ⟨others', rfl, htheirs⟩
      cases hothers
      rcases ih hmine htheirs with ⟨rfl, rfl⟩
      exact ⟨rfl, rfl⟩

/-- There are no more records than octets. -/
theorem length_le (hsplits : Splits limits data records rest) : records.length ≤ data.length := by
  induction records generalizing data with
  | nil => exact Nat.zero_le _
  | cons record records ih =>
      have hrecord := hsplits.holds record List.mem_cons_self
      have hpositive : 0 < record.octets.length := List.length_pos_iff.mpr hrecord.ne_nil
      have hdata := hsplits.partition
      rw [joined_cons, List.append_assoc] at hdata
      subst hdata
      rcases head_eq hrecord hsplits with ⟨others, hothers, hmore⟩
      cases hothers
      have hothers := ih hmore
      rw [List.length_cons, List.length_append]
      omega

end Splits

/-- Every octet string divides. -/
theorem exists_splits (limits : Limits) (data : Bytes) :
    ∃ records rest, Splits limits data records rest := by
  -- The induction is on the number of octets, of which every value takes one.
  generalize hlength : data.length = length
  induction length using Nat.strongRecOn generalizing data with
  | ind length ih =>
      cases hread : readValue limits limits.depth ⟨0, data⟩ with
      | error error => exact ⟨[], data, .none_of_error hread⟩
      | ok outcome =>
          rcases outcome with ⟨value, next⟩
          rcases readValue_reads hread with ⟨used, hdata, -, hreads⟩
          have hused : 0 < used.length := List.length_pos_iff.mpr hreads.ne_nil
          have hshorter : next.rest.length < length := by
            rw [← hlength, hdata, List.length_append]
            omega
          rcases ih _ hshorter next.rest rfl with ⟨records, rest, hsplits⟩
          have hholds : (Record.mk value used).Holds limits := hreads
          refine ⟨⟨value, used⟩ :: records, rest, ?_⟩
          rw [hdata]
          exact hsplits.cons hholds

/-! ## Decoding a whole string -/

/-- The offset behind the last value of a sequence that begins at the start. -/
def Sequence.stop (sequence : Sequence) : Nat :=
  ((sequence.values.getLast?).map Prod.snd).getD 0

/-- The offset behind the first `count` values of a sequence that begins at the
start. -/
def Sequence.stopAfter (sequence : Sequence) (count : Nat) : Nat :=
  (((sequence.values.take count).getLast?).map Prod.snd).getD 0

/-- Why the rest of a string, which begins at `offset`, is not read, if there
is a rest. -/
def restError? (limits : Limits) (offset : Nat) (rest : Bytes) : Option DecodeError :=
  if rest.isEmpty then none
  else match readValue limits limits.depth ⟨offset, rest⟩ with
    | .ok _ => none
    | .error error => some error

/-- Reading values one after the other finds the division of the octets. -/
theorem Splits.readAllWithin (hsplits : Splits limits data records rest) (fuel offset : Nat)
    (hfuel : data.length ≤ fuel) (done : List (Value × Nat)) :
    readAllWithin limits fuel done ⟨offset, data⟩ =
      ⟨done.reverse ++ placed offset records,
        restError? limits (offset + (joined records).length) rest⟩ := by
  induction records generalizing fuel offset data done with
  | nil =>
      rcases hsplits.stops with ⟨error, hstop⟩
      have hdata := hsplits.partition
      rw [joined_nil, List.nil_append] at hdata
      subst hdata
      simp only [placed, List.append_nil, joined_nil, List.length_nil, Nat.add_zero]
      cases fuel with
      | zero =>
          obtain rfl := List.eq_nil_of_length_eq_zero (Nat.le_zero.mp hfuel)
          rfl
      | succ fuel =>
          unfold DurableStore.readAllWithin restError?
          rw [readValue_moved, hstop, shiftOutcome]
          cases data <;> rfl
  | cons record records ih =>
      have hrecord := hsplits.holds record List.mem_cons_self
      have hread := hrecord.move offset (joined records ++ rest)
      have hpositive : 0 < record.octets.length := List.length_pos_iff.mpr hrecord.ne_nil
      have hdata := hsplits.partition
      rw [joined_cons, List.append_assoc] at hdata
      subst hdata
      rcases head_eq hrecord hsplits with ⟨others, hothers, hmore⟩
      cases hothers
      rw [List.length_append] at hfuel
      obtain ⟨fuel, rfl⟩ : ∃ fuel', fuel = fuel' + 1 := ⟨fuel - 1, by omega⟩
      have hsome : (record.octets ++ (joined records ++ rest)).isEmpty = false := by
        rw [List.isEmpty_eq_false_iff]
        exact List.append_ne_nil_of_left_ne_nil hrecord.ne_nil _
      rw [DurableStore.readAllWithin, hsome, if_neg Bool.false_ne_true, hread]
      simp only []
      rw [ih hmore fuel _ (by omega)]
      simp [placed, Nat.add_assoc]

/-- Decoding a whole string finds its division. -/
theorem Splits.decodeAll (hsplits : Splits limits data records rest) :
    decodeAll limits data =
      ⟨placed 0 records, restError? limits (joined records).length rest⟩ := by
  rw [DurableStore.decodeAll, hsplits.readAllWithin data.length 0 (Nat.le_refl _) [],
    Nat.zero_add, List.reverse_nil, List.nil_append]

/-- The values that decoding finds are those of the records. -/
theorem Splits.values_decodeAll (hsplits : Splits limits data records rest) :
    (DurableStore.decodeAll limits data).values.map Prod.fst = records.map Record.value := by
  rw [hsplits.decodeAll]
  exact map_fst_placed 0 records

/-- Decoding stops where the rest begins. -/
theorem Splits.stop_decodeAll (hsplits : Splits limits data records rest) :
    (DurableStore.decodeAll limits data).stop = (joined records).length := by
  rw [hsplits.decodeAll]
  simpa [Sequence.stop] using getLast_placed 0 records

/-- The first values end behind the octets of their records. -/
theorem Splits.stopAfter_decodeAll (hsplits : Splits limits data records rest) (count : Nat) :
    (DurableStore.decodeAll limits data).stopAfter count =
      (joined (records.take count)).length := by
  rw [hsplits.decodeAll, Sequence.stopAfter, take_placed]
  simpa using getLast_placed 0 (records.take count)

/-- Each of the values of a string is what decoding finds behind those before
it. -/
theorem decode_stopAfter {index stop : Nat} {value : Value}
    (hvalue : (decodeAll limits data).values[index]? = some (value, stop)) :
    decode limits data ((decodeAll limits data).stopAfter index) = .ok (value, stop) := by
  obtain ⟨records, rest, hsplits⟩ := exists_splits limits data
  have hlength : index < records.length := by
    have hindex := (List.getElem?_eq_some_iff.mp hvalue).1
    have hvalues := congrArg List.length hsplits.values_decodeAll
    rw [List.length_map, List.length_map] at hvalues
    rwa [← hvalues]
  -- The record of the value stands between those before it and those behind it.
  obtain ⟨before, record, after, rfl, rfl⟩ : ∃ before record after,
      records = before ++ record :: after ∧ before.length = index := by
    refine ⟨records.take index, records[index], records.drop (index + 1), ?_, ?_⟩
    · rw [← List.drop_eq_getElem_cons hlength, List.take_append_drop]
    · rw [List.length_take, Nat.min_eq_left hlength.le]
  have hrecord := hsplits.holds record (by simp)
  rw [hsplits.decodeAll, placed_append_cons, Nat.zero_add, Option.some.injEq,
    Prod.mk.injEq] at hvalue
  obtain ⟨rfl, rfl⟩ := hvalue
  refine decode_eq_ok.mpr ⟨⟨(joined before).length + record.octets.length, joined after ++ rest⟩,
    ?_, rfl⟩
  rw [hsplits.stopAfter_decodeAll, List.take_left, hsplits.partition, joined_append, joined_cons,
    List.append_assoc, List.drop_left, List.append_assoc]
  exact hrecord.move _ _

/-- The octets behind the last value are the rest. -/
theorem Splits.drop_stop (hsplits : Splits limits data records rest) :
    data.drop (DurableStore.decodeAll limits data).stop = rest := by
  rw [hsplits.stop_decodeAll, hsplits.partition, List.drop_left]

/-- Decoding fails exactly if there is a rest, and for the reason for which the
rest does not begin with a value. -/
theorem Splits.error_decodeAll (hsplits : Splits limits data records rest) {error : DecodeError}
    (hread : readValue limits limits.depth ⟨0, rest⟩ = .error error) :
    (DurableStore.decodeAll limits data).error? =
      if rest = [] then none else some (error.shift (joined records).length) := by
  rw [hsplits.decodeAll, restError?, readValue_moved, hread, shiftOutcome]
  cases rest <;> rfl

/-- Decoding stops at the end exactly if there is no rest. -/
theorem Splits.stop_eq_length (hsplits : Splits limits data records rest) :
    (DurableStore.decodeAll limits data).stop = data.length ↔ rest = [] := by
  rw [hsplits.stop_decodeAll, hsplits.partition, List.length_append, ← List.length_eq_zero_iff]
  omega

/-- If decoding fails, there is a rest, and the failure is that of the rest. -/
theorem Splits.of_error_decodeAll (hsplits : Splits limits data records rest)
    {error found : DecodeError}
    (hread : readValue limits limits.depth ⟨0, rest⟩ = .error error)
    (hfound : (DurableStore.decodeAll limits data).error? = some found) :
    rest ≠ [] ∧ error.shift (DurableStore.decodeAll limits data).stop = found := by
  rw [hsplits.error_decodeAll hread] at hfound
  by_cases hrest : rest = []
  · rw [if_pos hrest] at hfound
    cases hfound
  · rw [if_neg hrest, ← hsplits.stop_decodeAll] at hfound
    exact ⟨hrest, Option.some.inj hfound⟩

/-! ## Written values -/

/-- A value in its written form. -/
def Value.written (value : Value) : Record := ⟨value, value.wire⟩

/-- The written form of a value that fits holds it. -/
theorem Value.written_holds {value : Value} (hwritten : value.encodeFault? = none)
    (hfits : value.Fits limits limits.depth) : value.written.Holds limits :=
  value.reads_wire 0 hwritten hfits

/-- No value begins at the end of the input. -/
theorem splits_nil (limits : Limits) : Splits limits [] [] [] :=
  .none_of_error (readValue_nil limits limits.depth 0)

end DurableStore
