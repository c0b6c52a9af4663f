import DurableStore.Proofs.Wire.RoundTrip

/-!
# What is written and read back

Which values can be written, and which of them are read back, depends on their
parts: the texts, numbers, payloads and arrays that stand anywhere in them.  A
value cannot be written exactly if one of its parts cannot; a value that has been
written is read back if all its parts keep within the limits of the reader, and
refused for good if one of them does not.

Main results:

- Definitions `Value.OccursIn` and `Value.nesting`: the parts of a value and the
  depth of its arrays.
- Theorem `Value.encodeFault_eq_none`: which values can be written.
- Theorem `Value.fits_iff`: a value fits if its parts do.
- Theorem `Value.rejects_wire`: a value that does not fit is refused.
- Theorem `Value.decode_encode`: decoding undoes encoding within the limits and
  fails beyond them.
-/

namespace DurableStore

namespace Value

/-! ## The parts of a value -/

/-- One value stands somewhere in another. -/
inductive OccursIn : Value → Value → Prop
  /-- A value stands in itself. -/
  | self (value : Value) : OccursIn value value
  /-- What stands in an item stands in the array. -/
  | inside {part item : Value} {items : List Value} (hmem : item ∈ items)
      (hoccurs : OccursIn part item) : OccursIn part (.array items)

section Induction

variable {motive : Value → Prop}

mutual

/-- What holds of an array if it holds of its items, and of every other value,
holds of all values. -/
theorem induction_items
    (harray : ∀ items, (∀ item ∈ items, motive item) → motive (.array items))
    (hleaf : ∀ value, (∀ items, value ≠ .array items) → motive value) : ∀ value, motive value
  | .array items => harray items (induction_all harray hleaf items)
  | .simple _ | .error _ | .integer _ | .bulk _ | .absentBulk | .absentArray | .null
  | .foreign _ => hleaf _ nofun

/-- What holds of all values holds of the members of a list. -/
theorem induction_all
    (harray : ∀ items, (∀ item ∈ items, motive item) → motive (.array items))
    (hleaf : ∀ value, (∀ items, value ≠ .array items) → motive value) :
    ∀ items : List Value, ∀ item ∈ items, motive item
  | [], _, hmem => absurd hmem List.not_mem_nil
  | first :: rest, item, hmem =>
      (List.mem_cons.mp hmem).elim (fun hfirst => hfirst ▸ induction_items harray hleaf first)
        (induction_all harray hleaf rest item)

end

end Induction

section Parts

variable {accepts : Value → Prop}

/-- What holds of all parts of an array holds of the array and of all parts of
its items. -/
theorem forall_occursIn_array {items : List Value} :
    (∀ part : Value, part.OccursIn (.array items) → accepts part) ↔
      accepts (.array items) ∧
        ∀ item ∈ items, ∀ part : Value, part.OccursIn item → accepts part := by
  constructor
  · intro hall
    exact ⟨hall _ (.self _), fun item hmem part hoccurs => hall part (.inside hmem hoccurs)⟩
  · rintro ⟨harray, hitems⟩ part hoccurs
    cases hoccurs with
    | self => exact harray
    | inside hmem hoccurs => exact hitems _ hmem part hoccurs

/-- A value that is no array has no part but itself. -/
theorem forall_occursIn_leaf {value : Value} (hleaf : ∀ items, value ≠ .array items) :
    (∀ part : Value, part.OccursIn value → accepts part) ↔ accepts value := by
  constructor
  · exact fun hall => hall value (.self value)
  · intro hvalue part hoccurs
    cases hoccurs with
    | self => exact hvalue
    | inside hmem hoccurs => exact absurd rfl (hleaf _)

end Parts

/-! ## Which values can be written -/

/-- A value that cannot stand on the wire, whatever stands around it. -/
def Unwritable : Value → Prop
  | .simple text | .error text => 0x0D ∈ text ∨ 0x0A ∈ text
  | .integer number => number < -2 ^ 63 ∨ 2 ^ 63 - 1 < number
  | .foreign _ => True
  | .bulk _ | .absentBulk | .array _ | .absentArray | .null => False

/-- A text is a line if it holds neither octet of a line terminator. -/
theorem isLine_iff {text : Bytes} : isLine text = true ↔ ¬ (0x0D ∈ text ∨ 0x0A ∈ text) := by
  simp only [isLine, List.all_eq_true, Bool.and_eq_true, bne_iff_ne, not_or]
  constructor
  · exact fun hline => ⟨fun hreturn => (hline _ hreturn).1 rfl, fun hfeed => (hline _ hfeed).2 rfl⟩
  · rintro ⟨hreturn, hfeed⟩ octet hmem
    exact ⟨fun hsame => hreturn (hsame ▸ hmem), fun hsame => hfeed (hsame ▸ hmem)⟩

/-- The items of an array can be written if each of them can. -/
theorem itemsFault_eq_none {items : List Value} :
    itemsFault? items = none ↔ ∀ item ∈ items, item.encodeFault? = none := by
  induction items with
  | nil => simp [itemsFault?]
  | cons item items ih => rw [itemsFault_cons, ih, List.forall_mem_cons]

/-- A value can be written if all its parts can. -/
theorem encodeFault_eq_none {value : Value} :
    value.encodeFault? = none ↔ ∀ part : Value, part.OccursIn value → ¬ part.Unwritable := by
  induction value using induction_items with
  | harray items ih =>
      rw [forall_occursIn_array, encodeFault?, itemsFault_eq_none]
      constructor
      · exact fun hitems => ⟨id, fun item hmem => (ih item hmem).mp (hitems item hmem)⟩
      · exact fun hall item hmem => (ih item hmem).mpr (hall.2 item hmem)
  | hleaf value hleaf =>
      rw [forall_occursIn_leaf hleaf]
      cases value with
      | simple text | error text =>
          rw [encodeFault?, Unwritable, ← isLine_iff]
          by_cases htext : isLine text = true <;> simp [htext]
      | integer number =>
          have hrange : Numeral.fits64 number = true ↔ ¬ (number < -2 ^ 63 ∨ 2 ^ 63 - 1 < number) :=
            Numeral.fits64_iff.trans (by omega)
          rw [encodeFault?, Unwritable, ← hrange]
          by_cases hnumber : Numeral.fits64 number = true <;> simp [hnumber]
      | array items => exact absurd rfl (hleaf items)
      | bulk _ | absentBulk | absentArray | null | foreign _ => simp [encodeFault?, Unwritable]

/-- Encoding fails on the values that cannot be written. -/
theorem encode_eq_error {value : Value} :
    (∃ obstacle, value.encode = .error obstacle) ↔ value.encodeFault? ≠ none := by
  unfold encode
  cases value.encodeFault? <;> simp

/-- Encoding writes the others in their written form. -/
theorem encode_eq_ok {value : Value} {octets : Bytes} :
    value.encode = .ok octets ↔ value.encodeFault? = none ∧ value.wire = octets := by
  unfold encode
  cases value.encodeFault? <;> simp

/-! ## Which values fit -/

/-- The length of a payload, or the number of items of an array. -/
def size : Value → Nat
  | .bulk payload => payload.length
  | .array items => items.length
  | _ => 0

/-- A value keeps within the limits, as far as the items of arrays and the depth
of nesting are not concerned. -/
def Bounded (limits : Limits) : Value → Prop
  | .simple text | .error text => text.length ≤ limits.line
  | .bulk payload => payload.length ≤ limits.bulk
  | .array items => items.length ≤ limits.array
  | .integer _ | .absentBulk | .absentArray | .null | .foreign _ => True

mutual

/-- The depth of the arrays of a value, absent ones included. -/
def nesting : Value → Nat
  | .array items => nestingAmong items + 1
  | .absentArray => 1
  | .simple _ | .error _ | .integer _ | .bulk _ | .absentBulk | .null | .foreign _ => 0

/-- The depth of the arrays of the deepest of several values. -/
def nestingAmong : List Value → Nat
  | [] => 0
  | item :: rest => max (nesting item) (nestingAmong rest)

end

/-- A value keeps within the limits: all its parts do, and so does its depth. -/
structure Within (limits : Limits) (value : Value) : Prop where
  bounded : ∀ part : Value, part.OccursIn value → part.Bounded limits
  nesting_le : value.nesting ≤ limits.depth

/-- Items are nested no deeper than the deepest of them. -/
theorem nestingAmong_le {items : List Value} {room : Nat} :
    nestingAmong items ≤ room ↔ ∀ item ∈ items, item.nesting ≤ room := by
  induction items with
  | nil => simp [nestingAmong]
  | cons item items ih => rw [nestingAmong, Nat.max_le, ih, List.forall_mem_cons]

/-- A value that can be written, and whose sizes can be written as well, fits if
all its parts and the depth of its arrays do. -/
theorem fits_iff {limits : Limits} {value : Value} {room : Nat}
    (hwritten : value.encodeFault? = none)
    (hsize : ∀ part : Value, part.OccursIn value → part.size < Numeral.ceiling) :
    value.Fits limits room ↔
      (∀ part : Value, part.OccursIn value → part.Bounded limits) ∧ value.nesting ≤ room := by
  induction value using induction_items generalizing room with
  | harray items ih =>
      rw [forall_occursIn_array] at hsize
      have hitems : ItemsFit limits (room - 1) items ↔ ∀ item ∈ items,
          (∀ part : Value, part.OccursIn item → part.Bounded limits) ∧ item.nesting ≤ room - 1 := by
        rw [itemsFit_iff]
        refine forall₂_congr fun item hmem => ?_
        exact ih item hmem (itemsFault_eq_none.mp hwritten item hmem) (hsize.2 item hmem)
      have hceiling : items.length < Numeral.ceiling := hsize.1
      rw [forall_occursIn_array, Fits, hitems, nesting, Bounded]
      constructor
      · rintro ⟨hroom, ⟨hcount, -⟩, hall⟩
        have hnesting := nestingAmong_le.mpr fun item hmem => (hall item hmem).2
        exact ⟨⟨hcount, fun item hmem => (hall item hmem).1⟩, by omega⟩
      · rintro ⟨⟨hcount, hall⟩, hnesting⟩
        have hroom : nestingAmong items ≤ room - 1 := by omega
        exact ⟨by omega, ⟨hcount, hceiling⟩,
          fun item hmem => ⟨hall item hmem, nestingAmong_le.mp hroom item hmem⟩⟩
  | hleaf value hleaf =>
      rw [forall_occursIn_leaf hleaf] at hsize ⊢
      cases value with
      | bulk payload =>
          have hceiling : payload.length < Numeral.ceiling := hsize
          simp [Fits, Bounded, nesting, hceiling]
      | foreign object => simp [encodeFault?] at hwritten
      | array items => exact absurd rfl (hleaf items)
      | absentArray => simp [Fits, Bounded, nesting, Nat.succ_le_iff]
      | simple _ | error _ | integer _ | absentBulk | null => simp [Fits, Bounded, nesting]

end Value

/-! ## Values that do not fit are refused -/

/-- The failure of a decoding because something is larger than allowed. -/
def DecodeError.IsExcess (error : DecodeError) : Prop :=
  error.kind = .invalidLength ∨ error.kind = .nestingDepth

section Refused

variable {limits : Limits} {room offset : Nat}

/-- What follows a tag is refused with the value if the tag leads to it. -/
theorem readValue_rejects_scalar {octet : UInt8} {tag : Tag} {octets : Bytes} {fault : Fault}
    (htag : Tag.ofOctet? octet = some tag) (hscalar : tag = .array → room = 0)
    (hread : Rejects (readScalar limits tag) (offset + 1) octets fault) :
    Rejects (readValue limits room) offset (octet :: octets) (.here fault) :=
  (hread.first (readTagged_steps limits tag)).cons (readValue_scalar htag hscalar limits offset)

/-- A text that is too long is refused. -/
theorem readText_rejects (make : Bytes → Value) {text : Bytes} (hline : ¬ Bytes.crlf <:+: text)
    (hlimit : limits.line < text.length) :
    Rejects (readText limits make) offset (text ++ Bytes.crlf)
      (.longLine offset limits.line) :=
  (readLine_rejects hline hlimit).first (readText_steps limits make)

/-- A bulk string that is too long is refused for its length. -/
theorem readBulk_rejects {length : Nat} (hceiling : length < Numeral.ceiling)
    (hlimit : limits.bulk < length) (octets : Bytes) :
    Rejects (readBulk limits) offset ((Numeral.ofNat length ++ Bytes.crlf) ++ octets)
      (.badLength .bulkLength length) := by
  refine .bind (readBulk_steps limits) (readNumber_reads .bulkLength
    (Numeral.denotes_ofInt length) (Value.length_ofNat_le hceiling)) fun more => ?_
  have habsent : ¬ (length : Int) = -1 := by omega
  have hbad : (length : Int) < 0 ∨ (limits.bulk : Int) < length := by omega
  rw [readBody, if_neg habsent, if_pos hbad]

/-- An array of too many items is refused for their number. -/
theorem readArray_rejects_count (readItem : Reader DecodeError Value) {count : Nat}
    (hceiling : count < Numeral.ceiling) (hlimit : limits.array < count) (octets : Bytes) :
    Rejects (readArray limits readItem) offset ((Numeral.ofNat count ++ Bytes.crlf) ++ octets)
      (.here (.badLength .arrayLength count)) := by
  refine .bind (readArray_steps limits readItem) (readNumber_reads .arrayLength
    (Numeral.denotes_ofInt count) (Value.length_ofNat_le hceiling)) fun more => ?_
  have habsent : ¬ (count : Int) = -1 := by omega
  have hbad : (count : Int) < 0 ∨ (limits.array : Int) < count := by omega
  rw [readCounted, if_neg habsent, if_pos hbad]

/-- An array of not too many items is refused with its items. -/
theorem readArray_rejects_items {readItem : Reader DecodeError Value} {count : Nat}
    (hceiling : count < Numeral.ceiling) (hlimit : count ≤ limits.array) {octets : Bytes}
    {error : DecodeError}
    (hitems : Rejects (readItems readItem count [])
      (offset + (Numeral.ofNat count ++ Bytes.crlf).length) octets error) :
    Rejects (readArray limits readItem) offset ((Numeral.ofNat count ++ Bytes.crlf) ++ octets)
      error := by
  refine .bind (readArray_steps limits readItem) (readNumber_reads .arrayLength
    (Numeral.denotes_ofInt count) (Value.length_ofNat_le hceiling)) ?_
  rw [readCounted_natCast readItem hlimit]
  exact hitems

end Refused

namespace Value

variable {limits : Limits}

/-- If one of several items does not fit, and each item that does not fit is
refused, then the items are refused. -/
theorem rejects_wireItems {room : Nat} {items : List Value} (hwritten : itemsFault? items = none)
    (hunfit : ¬ ItemsFit limits room items)
    (hitems : ∀ item ∈ items, ∀ offset, ¬ item.Fits limits room →
      ∃ error, Rejects (readValue limits room) offset item.wire error ∧ error.IsExcess)
    (done : List Value) (offset : Nat) :
    ∃ error, Rejects (readItems (readValue limits room) items.length done) offset
      (items.flatMap wire) error ∧ error.IsExcess := by
  induction items generalizing done offset with
  | nil => exact absurd trivial hunfit
  | cons item items ih =>
      rcases itemsFault_cons.mp hwritten with ⟨hitem, hrest⟩
      rw [List.flatMap_cons]
      by_cases hfits : item.Fits limits room
      · -- The item is read, and one behind it does not fit.
        have hlater : ¬ ItemsFit limits room items := fun hfit => hunfit ⟨hfits, hfit⟩
        obtain ⟨error, hrejects, hexcess⟩ :=
          ih hrest hlater (fun other hmem => hitems other (List.mem_cons_of_mem _ hmem))
            (item :: done) (offset + item.wire.length)
        exact ⟨error, .bind (readItems_steps _ _ done) (item.reads_wire offset hitem hfits)
          hrejects, hexcess⟩
      · obtain ⟨error, hrejects, hexcess⟩ := hitems item List.mem_cons_self offset hfits
        exact ⟨_, (hrejects.append _).first (readItems_steps _ _ done), hexcess⟩

/-- A value that is no array, that can be written, and whose length can be
written as well, is refused if it does not fit. -/
theorem rejects_wire_leaf {value : Value} {room : Nat} (offset : Nat)
    (hleaf : ∀ items, value ≠ .array items) (hwritten : value.encodeFault? = none)
    (hsize : value.size < Numeral.ceiling) (hunfit : ¬ value.Fits limits room) :
    ∃ error, Rejects (readValue limits room) offset value.wire error ∧ error.IsExcess := by
  cases value with
  | array items => exact absurd rfl (hleaf items)
  | foreign object => simp [encodeFault?] at hwritten
  | integer _ | absentBulk | null => exact absurd trivial hunfit
  | simple text =>
      have htext : isLine text = true := by simpa [encodeFault?] using hwritten
      rw [wire_simple]
      exact ⟨_, readValue_rejects_scalar rfl nofun
        (readText_rejects .simple (not_crlf_infix_of_isLine htext) (Nat.not_le.mp hunfit)),
        .inl rfl⟩
  | error text =>
      have htext : isLine text = true := by simpa [encodeFault?] using hwritten
      rw [wire_error]
      exact ⟨_, readValue_rejects_scalar rfl nofun
        (readText_rejects .error (not_crlf_infix_of_isLine htext) (Nat.not_le.mp hunfit)),
        .inl rfl⟩
  | bulk payload =>
      have hlong : limits.bulk < payload.length :=
        Nat.not_le.mp fun hlimit => hunfit ⟨hlimit, hsize⟩
      rw [wire_bulk]
      exact ⟨_, readValue_rejects_scalar rfl nofun
        (readBulk_rejects hsize hlong _), .inl rfl⟩
  | absentArray =>
      have hroom : room = 0 := Nat.eq_zero_of_not_pos hunfit
      exact ⟨.here (.tooDeep limits.depth),
        readValue_rejects_scalar rfl (fun _ => hroom) fun _ => rfl, .inr rfl⟩

/-- A value that can be written, and whose sizes can be written as well, is
refused if it does not fit. -/
theorem rejects_wire {value : Value} {room : Nat} (offset : Nat)
    (hwritten : value.encodeFault? = none)
    (hsize : ∀ part : Value, part.OccursIn value → part.size < Numeral.ceiling)
    (hunfit : ¬ value.Fits limits room) :
    ∃ error, Rejects (readValue limits room) offset value.wire error ∧ error.IsExcess := by
  induction value using induction_items generalizing room offset with
  | hleaf value hleaf =>
      exact rejects_wire_leaf offset hleaf hwritten (hsize value (.self value)) hunfit
  | harray items ih =>
      obtain ⟨hcount, hitems⟩ := forall_occursIn_array.mp hsize
      rw [wire_array]
      cases room with
      | zero =>
          exact ⟨.here (.tooDeep limits.depth),
            readValue_rejects_scalar rfl (fun _ => rfl) fun _ => rfl, .inr rfl⟩
      | succ room =>
          have htag : ∀ tail, readValue limits (room + 1) ⟨offset, 0x2A :: tail⟩ =
              readArray limits (readValue limits room) ⟨offset + 1, tail⟩ :=
            readValue_array rfl limits room offset
          by_cases hlimit : items.length ≤ limits.array
          · have hdeeper : ¬ ItemsFit limits room items :=
              fun hfit => hunfit ⟨Nat.succ_pos room, ⟨hlimit, hcount⟩, hfit⟩
            have hitem := itemsFault_eq_none.mp hwritten
            obtain ⟨error, hrejects, hexcess⟩ := rejects_wireItems hwritten hdeeper
              (fun item hmem offset => ih item hmem offset (hitem item hmem) (hitems item hmem))
              [] _
            exact ⟨error, (readArray_rejects_items hcount hlimit hrejects).cons htag, hexcess⟩
          · exact ⟨_, (readArray_rejects_count _ hcount (Nat.not_le.mp hlimit) _).cons htag,
              .inl rfl⟩

/-! ## Writing and reading back -/

/-- A value cannot be written exactly if a text with a line break, a number beyond
64 bits, or an object that is no value stands somewhere in it.  What has been
written is read back, whatever follows it, if the value is within the limits, and
refused as too large or too deep if it is not.  Payloads and arrays whose size
takes more than twenty digits are left aside, because no length of so many digits
is ever read. -/
theorem decode_encode (limits : Limits) (value : Value) :
    ((∃ obstacle, value.encode = .error obstacle) ↔
      ∃ part : Value, part.OccursIn value ∧ part.Unwritable) ∧
    ∀ octets, value.encode = .ok octets →
      (∀ part : Value, part.OccursIn value → part.size < 10 ^ 20) → ∀ tail,
        (value.Within limits →
          decode limits (octets ++ tail) 0 = .ok (value, octets.length)) ∧
        (¬ value.Within limits →
          ∃ error, decode limits (octets ++ tail) 0 = .error error ∧
            (error.kind = .invalidLength ∨ error.kind = .nestingDepth)) := by
  constructor
  · rw [encode_eq_error, Ne, encodeFault_eq_none]
    push Not
    rfl
  · intro octets hencode hsize tail
    obtain ⟨hwritten, rfl⟩ := encode_eq_ok.mp hencode
    have hfits : value.Fits limits limits.depth ↔ value.Within limits :=
      (fits_iff hwritten hsize).trans ⟨fun ⟨hparts, hdepth⟩ => ⟨hparts, hdepth⟩,
        fun ⟨hparts, hdepth⟩ => ⟨hparts, hdepth⟩⟩
    rw [← hfits]
    constructor
    · intro hfit
      exact decode_eq_ok.mpr ⟨_, value.reads_wire 0 hwritten hfit tail, Nat.zero_add _⟩
    · intro hunfit
      obtain ⟨error, hrejects, hexcess⟩ := rejects_wire 0 hwritten hsize hunfit
      exact ⟨error, decode_eq_error.mpr (hrejects tail), hexcess⟩

end Value

end DurableStore
