import DurableStore.Proofs.Log.Lifecycle

/-!
# Recovery after a crash

A crash leaves the first octets of what was written to the log, cut off at any
place.  Opening such a log runs exactly the requests whose records lie completely
within these octets, and cuts the file back to the end of the last of them,
unless the octets of the record that was cut look as if a complete request began
inside it.  Payloads are arbitrary octets, so that this can happen; it cannot
happen if no payload holds an asterisk.

Main results:

- Theorem `Value.splits_take`: how the first octets of written values divide.
- Theorem `Log.opening_cut`: what opening a log that was cut off leads to.
- Theorem `Log.opening_cut_refused`: a log that is refused although it was merely
  cut off.
- Theorem `Log.opening_take_of_plain`: no payload with an asterisk, no log that is
  refused.
-/

namespace DurableStore

namespace Value

/-! ## Cutting written values -/

/-- The first values, as many as have their written forms completely within the
first `cut` octets. -/
def wholeWithin : Nat → List Value → List Value
  | _, [] => []
  | cut, value :: rest =>
      if value.wire.length ≤ cut then value :: wholeWithin (cut - value.wire.length) rest
      else []

/-- What is left of the written form that was cut off after `cut` octets. -/
def torn : Nat → List Value → Bytes
  | _, [] => []
  | cut, value :: rest =>
      if value.wire.length ≤ cut then torn (cut - value.wire.length) rest
      else value.wire.take cut

variable {limits : Limits}

/-- The octets of values in their written forms. -/
theorem joined_map_written (values : List Value) :
    Record.joined (values.map written) = values.flatMap wire := by
  rw [Record.joined, List.flatMap_map]
  rfl

/-- The first octets of written values divide into the values that lie
completely within them and the octets of the one that was cut off, which are too
few. -/
theorem splits_take {values : List Value}
    (hholds : ∀ value ∈ values, value.written.Holds limits) (cut : Nat) :
    Splits limits ((values.flatMap wire).take cut) ((wholeWithin cut values).map written)
        (torn cut values) ∧
      ∃ error, readValue limits limits.depth ⟨0, torn cut values⟩ = .error error ∧
        error.isShort = true := by
  induction values generalizing cut with
  | nil =>
      refine ⟨?_, _, readValue_nil limits limits.depth 0, rfl⟩
      simpa [wholeWithin, torn] using splits_nil limits
  | cons value values ih =>
      have hvalue : value.written.Holds limits := hholds value List.mem_cons_self
      rw [List.flatMap_cons, wholeWithin, torn]
      by_cases hwhole : value.wire.length ≤ cut
      · obtain ⟨hsplits, hread⟩ :=
          ih (fun other hother => hholds other (List.mem_cons_of_mem _ hother))
            (cut - value.wire.length)
        rw [if_pos hwhole, if_pos hwhole, List.take_append, List.take_of_length_le hwhole]
        exact ⟨hsplits.cons hvalue, hread⟩
      · have hproper : value.wire.drop cut ≠ [] := by
          rw [Ne, List.drop_eq_nil_iff]
          exact hwhole
        have hprefix : Reads (readValue limits limits.depth) 0
            (value.wire.take cut ++ value.wire.drop cut) value := by
          rw [List.take_append_drop]
          exact hvalue
        rcases readValue_waits_of_prefix hprefix hproper with ⟨error, hread, hshort⟩
        rw [if_neg hwhole, if_neg hwhole, List.take_append_of_le_length (by omega)]
        exact ⟨.none_of_error hread, error, hread, hshort⟩

/-! ## Payloads without asterisks -/

/-- What is left of the written form that was cut off is its beginning. -/
theorem torn_prefix {cut : Nat} {values : List Value} (htorn : torn cut values ≠ []) :
    ∃ value ∈ values, torn cut values <+: value.wire := by
  induction values generalizing cut with
  | nil => exact absurd rfl htorn
  | cons value values ih =>
      rw [torn] at htorn ⊢
      by_cases hwhole : value.wire.length ≤ cut
      · rw [if_pos hwhole] at htorn ⊢
        rcases ih htorn with ⟨other, hother, hbegins⟩
        exact ⟨other, List.mem_cons_of_mem _ hother, hbegins⟩
      · rw [if_neg hwhole]
        exact ⟨value, List.mem_cons_self, List.take_prefix cut value.wire⟩

/-- No digit is an asterisk. -/
theorem star_not_mem_ofNat (n : Nat) : 0x2A ∉ Numeral.ofNat n := by
  intro hmem
  have hdigit := Numeral.isDigit_of_mem_ofNat hmem
  cases hdigit

/-- The written form of a request whose payloads hold no asterisk holds none but
its type tag. -/
theorem star_not_mem_tail_wire {payloads : List Bytes}
    (hplain : ∀ payload ∈ payloads, 0x2A ∉ payload) :
    ∃ tail, (array (payloads.map .bulk)).wire = 0x2A :: tail ∧ 0x2A ∉ tail := by
  refine ⟨_, wire_array _, ?_⟩
  have hitems : 0x2A ∉ (payloads.map Value.bulk).flatMap wire := by
    intro hmem
    rcases List.mem_flatMap.mp hmem with ⟨item, hitem, hoctet⟩
    rcases List.mem_map.mp hitem with ⟨payload, hpayload, rfl⟩
    rw [wire_bulk] at hoctet
    simp [Bytes.crlf, star_not_mem_ofNat, hplain payload hpayload] at hoctet
  simp [Bytes.crlf, star_not_mem_ofNat, hitems]

/-- If no payload holds an asterisk, no complete request begins inside a record
that was cut off. -/
theorem not_requestInside_torn {values : List Value}
    (hplain : ∀ value ∈ values, ∃ payloads : List Bytes,
      value = .array (payloads.map .bulk) ∧ ∀ payload ∈ payloads, 0x2A ∉ payload)
    (cut position : Nat) : ¬ Replay.RequestInside limits (torn cut values) position := by
  rintro ⟨before, behind, hsplit, hposition, value, next, command, hread, hparse⟩
  have htorn : torn cut values ≠ [] := by
    rw [hsplit]
    simp [Bytes.crlf]
  rcases torn_prefix htorn with ⟨request, hrequest, more, hwire⟩
  rcases hplain request hrequest with ⟨payloads, rfl, hpayloads⟩
  rcases star_not_mem_tail_wire hpayloads with ⟨tail, htail, hstar⟩
  rw [hsplit, htail] at hwire
  -- The request inside begins with an asterisk behind the type tag.
  obtain ⟨octets, rfl⟩ : ∃ octets, behind = 0x2A :: octets := by
    rcases decode_eq_ok.mp hread with ⟨cursor, hvalue, -⟩
    rw [hsplit, hposition, List.drop_left] at hvalue
    exact head_of_read_array hvalue (Command.kind_of_parse hparse)
  apply hstar
  cases before with
  | nil => simp [Bytes.crlf] at hwire
  | cons octet before =>
      have hrest := (List.cons.inj hwire).2
      rw [← hrest]
      simp

end Value

namespace Log

/-! ## Opening a log that was cut off -/

/-- What opening the first `cut` octets of a log leads to, if nothing but these
values has been appended to it. -/
structure CutOutcome (log : Log) (values : List Value) (cut : Nat) (crashed : Volume)
    (opening : Opening) : Prop where
  /-- The commands of the whole records have been run. -/
  keyspace_eq : opening.keyspace =
    Keyspace.empty.dispatchAll (Command.knownAmong (Value.wholeWithin cut values))
  /-- Unless a complete request begins inside the torn record, the log is opened
  and the file is cut back to the end of the last whole record. -/
  recovered : (∀ position, ¬ Replay.RequestInside log.limits (Value.torn cut values) position) →
    (∃ opened, opening.result = .ok opened) ∧
      opening.volume =
        { crashed with place := .file ((Value.wholeWithin cut values).flatMap Value.wire) }
  /-- If one does, the log is refused and the file is left alone. -/
  refused : (∃ position, Replay.RequestInside log.limits (Value.torn cut values) position) →
    (∃ position, Replay.RequestInside log.limits (Value.torn cut values) position ∧
      opening.result = .error (.overrun log.path
        ((Value.wholeWithin cut values).flatMap Value.wire).length
        (((Value.wholeWithin cut values).flatMap Value.wire).length + position))) ∧
      opening.volume = crashed

/-- Opening the first octets of written requests runs the whole ones, and
succeeds unless a complete request begins inside the torn one. -/
theorem opening_take {log : Log} {values : List Value}
    (hholds : ∀ value ∈ values, value.written.Holds log.limits) (cut : Nat) (syncFails : Bool) :
    CutOutcome log values cut ⟨.file ((values.flatMap Value.wire).take cut), syncFails⟩
      (log.opening ⟨.file ((values.flatMap Value.wire).take cut), syncFails⟩ .empty) := by
  rcases Value.splits_take hholds cut with ⟨hsplits, error, hread, hshort⟩
  have hcreate : (⟨.file ((values.flatMap Value.wire).take cut), syncFails⟩ : Volume).create =
      .ok ⟨.file ((values.flatMap Value.wire).take cut), syncFails⟩ := rfl
  obtain ⟨-, -, hoffset, hfailure⟩ :=
    (Replay.start .empty).steps_spec ((Value.wholeWithin cut values).map Value.written)
  have hvalues : ((Value.wholeWithin cut values).map Value.written).map Record.value =
      Value.wholeWithin cut values := by
    rw [List.map_map]
    exact List.map_id _
  have hjudged := Replay.conclude_short log.path hread hshort
    ((Replay.start .empty).steps ((Value.wholeWithin cut values).map Value.written))
  have hstop : ((Replay.start .empty).steps
      ((Value.wholeWithin cut values).map Value.written)).offset =
        ((Value.wholeWithin cut values).flatMap Value.wire).length := by
    rw [hoffset, Value.joined_map_written]
    exact Nat.zero_add _
  rw [hfailure, hstop] at hjudged
  constructor
  case keyspace_eq => rw [opening_keyspace hcreate rfl hsplits, hvalues]
  case recovered =>
    intro houtside
    rw [Replay.follower_eq_none.mpr houtside] at hjudged
    rcases opening_ok hcreate rfl hsplits hjudged with ⟨hresult, hvolume⟩
    rw [Value.joined_map_written] at hvolume
    exact ⟨⟨_, hresult⟩, hvolume⟩
  case refused =>
    rintro ⟨position, hinside⟩
    cases hfollower : Replay.follower? log.limits (Value.torn cut values) with
    | none => exact absurd hinside (Replay.follower_eq_none.mp hfollower position)
    | some found =>
        rw [hfollower] at hjudged
        rcases opening_error hcreate rfl hsplits hjudged with ⟨hresult, hvolume⟩
        exact ⟨⟨found, Replay.follower_eq_some hfollower, hresult⟩, hvolume⟩

/-- If no payload holds an asterisk, the log is recovered at every cut. -/
theorem opening_take_of_plain {log : Log} {values : List Value}
    (hholds : ∀ value ∈ values, value.written.Holds log.limits)
    (hplain : ∀ value ∈ values, ∃ payloads : List Bytes,
      value = .array (payloads.map .bulk) ∧ ∀ payload ∈ payloads, 0x2A ∉ payload)
    (cut : Nat) (syncFails : Bool) :
    (∃ opened, (log.opening ⟨.file ((values.flatMap Value.wire).take cut), syncFails⟩
        .empty).result = .ok opened) ∧
      (log.opening ⟨.file ((values.flatMap Value.wire).take cut), syncFails⟩ .empty).volume =
        ⟨.file ((Value.wholeWithin cut values).flatMap Value.wire), syncFails⟩ :=
  (opening_take hholds cut syncFails).recovered (Value.not_requestInside_torn hplain cut)

/-- A log that is opened where nothing has been written is empty. -/
theorem opening_empty {log : Log} {volume : Volume}
    (hempty : volume.place = .absent ∨ volume.place = .file []) (keyspace : Keyspace) :
    (log.opening volume keyspace).result = .ok
        { log with
          handle? := some .fresh
          halfClosed := false
          replayed := 0
          appended := 0 } ∧
      (log.opening volume keyspace).volume = { volume with place := .file [] } := by
  rcases volume with ⟨place, syncFails⟩
  have hcreate : (⟨place, syncFails⟩ : Volume).create = .ok ⟨.file [], syncFails⟩ := by
    rcases hempty with rfl | rfl <;> rfl
  have hfailure : (Replay.conclude log.limits log.path []
      ((Replay.start keyspace).steps [])).failure? = none := by
    rw [Replay.conclude_nil]
    rfl
  exact opening_ok hcreate rfl (splits_nil log.limits) hfailure

/-- Appending values to an empty log and closing it leaves their written forms
in the file. -/
theorem appendThenClose_empty {log : Log} (hhandle : log.handle? = some .fresh) {volume : Volume}
    (hplace : volume.place = .file []) {values : List Value}
    (hwritten : ∀ value ∈ values, value.encodeFault? = none) :
    (log.appendThenClose volume values).volume =
      { volume with place := .file (values.flatMap Value.wire) } := by
  rcases appendAll_ok hhandle rfl hwritten with ⟨later, -, hlog, hworks, hpieces⟩
  change ((log.appendAll values).2.close volume).volume = _
  obtain ⟨moved, hvolume, -, hwhole⟩ := (log.appendAll values).2.close_spec hplace
  have hall : (log.appendAll values).2.pieces = values.map Value.wire := by
    rw [hlog]
    exact hpieces
  have hfaultless : (log.appendAll values).2.faultless = true := by
    rw [hlog]
    exact hworks
  rw [hvolume, hwhole (whole_close hfaultless volume), hall, List.nil_append, List.flatMap_def]

/-- Requests are appended to an empty log, and the log is closed.  Opening the
first octets of the file, cut off at any place, runs exactly the requests whose
records lie completely within them, and leaves the file cut back to the end of
the last of these, unless a complete request begins inside the torn record; then
the log is refused. -/
theorem opening_cut {log : Log} {volume : Volume} {values : List Value}
    (hempty : volume.place = .absent ∨ volume.place = .file [])
    (hrequests : ∀ value ∈ values, (∃ command, Command.parse value = .ok command) ∧
      value.Fits log.limits log.limits.depth) :
    ∃ opened, (log.opening volume .empty).result = .ok opened ∧
      (opened.appendThenClose (log.opening volume .empty).volume values).volume =
        { volume with place := .file (values.flatMap Value.wire) } ∧
      ∀ cut,
        CutOutcome log values cut
          { volume with place := .file ((values.flatMap Value.wire).take cut) }
          (log.opening { volume with place := .file ((values.flatMap Value.wire).take cut) }
            .empty) := by
  rcases opening_empty hempty .empty with ⟨hresult, hvolume⟩
  have hwritten : ∀ value ∈ values, value.encodeFault? = none := by
    intro value hvalue
    rcases hrequests value hvalue with ⟨⟨command, hparse⟩, -⟩
    exact Command.encodeFault_of_parse hparse
  have hholds : ∀ value ∈ values, value.written.Holds log.limits := fun value hvalue =>
    Value.written_holds (hwritten value hvalue) (hrequests value hvalue).2
  refine ⟨_, hresult, ?_, fun cut => opening_take hholds cut volume.syncFails⟩
  rw [hvolume]
  exact appendThenClose_empty rfl rfl hwritten

/-- A request that sets a key to the octets of another request. -/
def nested : Value :=
  .array ([Bytes.ofString "SET", Bytes.ofString "k",
    Bytes.ofString "*1\r\n$4\r\nPING\r\n"].map .bulk)

/-- Two requests are recovered at every cut. -/
theorem opening_cut_pair :
    ∃ opened, ((unopened "log.aof" .standard .one).opening ⟨.absent, false⟩ .empty).result =
        .ok opened ∧
      (opened.appendThenClose
          ((unopened "log.aof" .standard .one).opening ⟨.absent, false⟩ .empty).volume
          [nested, nested]).volume =
        ⟨.file ([nested, nested].flatMap Value.wire), false⟩ ∧
      ∀ cut,
        CutOutcome (unopened "log.aof" .standard .one) [nested, nested] cut
          ⟨.file (([nested, nested].flatMap Value.wire).take cut), false⟩
          ((unopened "log.aof" .standard .one).opening
            ⟨.file (([nested, nested].flatMap Value.wire).take cut), false⟩ .empty) := by
  refine opening_cut (.inl rfl) fun value hvalue => ?_
  have hnested : value = nested := by simpa using hvalue
  subst hnested
  exact ⟨⟨_, rfl⟩, by decide⟩

/-- The log that holds all but the last octet of one request is refused. -/
theorem opening_cut_refused :
    (Command.parse nested).isOk = true ∧ nested.Fits Limits.standard Limits.standard.depth ∧
      ((unopened "log.aof" .standard .one).opening
          ⟨.file (nested.wire.take (nested.wire.length - 1)), false⟩ .empty).result.isOk =
        false := by
  exact ⟨by decide, by decide, by decide +kernel⟩

end Log

end DurableStore
