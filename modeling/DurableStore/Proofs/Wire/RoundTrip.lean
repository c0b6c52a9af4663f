import DurableStore.Proofs.Wire.Grammar
import DurableStore.Wire.Encode

/-!
# Reading written values

The written form of a value that keeps within the limits of a reader is one of
its wire forms, so that the value is read from it, whatever follows.  Conversely,
every value that has a wire form, and so every value that a reader returns, keeps
within the limits.  These include one that belongs to the format: lengths and
item counts are written in at most twenty digits.

Main results:

- Definition `Value.Fits`: a value keeps within the limits.
- Theorem `Value.wireForm_wire`: the written form of a value that fits is a wire
  form.
- Theorem `Value.reads_wire`: a value that fits is read from its written form.
- Theorem `Value.fits_of_read`: a value that has been read fits.
- Theorem `Value.decode_wire_iff`: exactly the values that fit are decoded where their
  written forms stand.
- Theorem `Value.Fits.mono`: a value that fits also fits larger limits.
-/

namespace DurableStore

/-! ## Values within limits -/

/-- One set of limits is no larger than another. -/
instance : LE Limits where
  le small large := small.bulk ≤ large.bulk ∧ small.array ≤ large.array ∧
    small.line ≤ large.line ∧ small.depth ≤ large.depth

/-- The least number that no numeral on the wire can denote. -/
def Numeral.ceiling : Nat := 10 ^ Numeral.maxLength

namespace Value

mutual

/-- A value keeps within the limits, with room for `room` levels of arrays. -/
def Fits (limits : Limits) : Nat → Value → Prop
  | _, .simple text => text.length ≤ limits.line
  | _, .error text => text.length ≤ limits.line
  | _, .bulk payload => payload.length ≤ limits.bulk ∧ payload.length < Numeral.ceiling
  | room, .array items =>
      0 < room ∧ (items.length ≤ limits.array ∧ items.length < Numeral.ceiling) ∧
        ItemsFit limits (room - 1) items
  | room, .absentArray => 0 < room
  | _, .integer _ | _, .absentBulk | _, .null => True
  | _, .foreign _ => False

/-- The items of an array keep within the limits. -/
def ItemsFit (limits : Limits) : Nat → List Value → Prop
  | _, [] => True
  | room, item :: rest => Fits limits room item ∧ ItemsFit limits room rest

end

mutual

/-- Whether a value keeps within the limits can be decided. -/
def Fits.decide (limits : Limits) :
    ∀ (room : Nat) (value : Value), Decidable (Fits limits room value)
  | _, .simple text | _, .error text => inferInstanceAs (Decidable (text.length ≤ limits.line))
  | _, .bulk payload =>
      inferInstanceAs
        (Decidable (payload.length ≤ limits.bulk ∧ payload.length < Numeral.ceiling))
  | room, .array items =>
      have : Decidable (ItemsFit limits (room - 1) items) :=
        ItemsFit.decide limits (room - 1) items
      inferInstanceAs
        (Decidable (0 < room ∧
          (items.length ≤ limits.array ∧ items.length < Numeral.ceiling) ∧
            ItemsFit limits (room - 1) items))
  | room, .absentArray => inferInstanceAs (Decidable (0 < room))
  | _, .integer _ | _, .absentBulk | _, .null => inferInstanceAs (Decidable True)
  | _, .foreign _ => inferInstanceAs (Decidable False)

/-- Whether items keep within the limits can be decided. -/
def ItemsFit.decide (limits : Limits) :
    ∀ (room : Nat) (items : List Value), Decidable (ItemsFit limits room items)
  | _, [] => inferInstanceAs (Decidable True)
  | room, item :: rest =>
      have : Decidable (Fits limits room item) := Fits.decide limits room item
      have : Decidable (ItemsFit limits room rest) := ItemsFit.decide limits room rest
      inferInstanceAs (Decidable (Fits limits room item ∧ ItemsFit limits room rest))

end

instance (limits : Limits) (room : Nat) (value : Value) : Decidable (Fits limits room value) :=
  Fits.decide limits room value

/-- The items of an array keep within the limits if each of them does. -/
theorem itemsFit_iff (limits : Limits) (room : Nat) (items : List Value) :
    ItemsFit limits room items ↔ ∀ item ∈ items, item.Fits limits room := by
  induction items with
  | nil => simp [ItemsFit]
  | cons item items ih => simp [ItemsFit, ih]

mutual

/-- A value that fits also fits larger limits. -/
theorem Fits.mono {small large : Limits} (hlimits : small ≤ large) :
    ∀ {room wide : Nat} {value : Value}, room ≤ wide → value.Fits small room →
      value.Fits large wide
  | _, _, .simple _, _, hfits | _, _, .error _, _, hfits => Nat.le_trans hfits hlimits.2.2.1
  | _, _, .bulk _, _, hfits => ⟨Nat.le_trans hfits.1 hlimits.1, hfits.2⟩
  | _, _, .array _, hroom, hfits =>
      ⟨Nat.lt_of_lt_of_le hfits.1 hroom,
        ⟨Nat.le_trans hfits.2.1.1 hlimits.2.1, hfits.2.1.2⟩,
        ItemsFit.mono hlimits (Nat.sub_le_sub_right hroom 1) hfits.2.2⟩
  | _, _, .absentArray, hroom, hfits => Nat.lt_of_lt_of_le hfits hroom
  | _, _, .integer _, _, _ | _, _, .absentBulk, _, _ | _, _, .null, _, _ => trivial

/-- Items that fit also fit larger limits. -/
theorem ItemsFit.mono {small large : Limits} (hlimits : small ≤ large) :
    ∀ {room wide : Nat} {items : List Value}, room ≤ wide → ItemsFit small room items →
      ItemsFit large wide items
  | _, _, [], _, _ => trivial
  | _, _, _ :: _, hroom, hfits =>
      ⟨Fits.mono hlimits hroom hfits.1, ItemsFit.mono hlimits hroom hfits.2⟩

end

/-! ## Written forms -/

mutual

/-- A written form in front of other octets is the written form and those
octets. -/
theorem wireBefore_eq : ∀ (value : Value) (tail : Bytes), value.wireBefore tail = value.wire ++ tail
  | .array items, tail => by
      simp [wire, wireBefore, wireLine, wireItems_eq items tail, wireItems_eq items []]
  | .simple _, _ | .error _, _ | .integer _, _ | .bulk _, _ | .absentBulk, _
  | .absentArray, _ | .null, _ | .foreign _, _ => by
      simp [wire, wireBefore, wireLine]

/-- The written forms of items stand one behind the other. -/
theorem wireItems_eq : ∀ (items : List Value) (tail : Bytes),
    wireItems items tail = items.flatMap wire ++ tail
  | [], tail => rfl
  | item :: rest, tail => by
      rw [wireItems, wireItems_eq rest tail, wireBefore_eq item, List.flatMap_cons,
        List.append_assoc]

end

/-- The written form of a status line. -/
theorem wire_simple (text : Bytes) : (simple text).wire = 0x2B :: (text ++ Bytes.crlf) := by
  simp [wire, wireBefore, wireLine]

/-- The written form of an error line. -/
theorem wire_error (text : Bytes) : (error text).wire = 0x2D :: (text ++ Bytes.crlf) := by
  simp [wire, wireBefore, wireLine]

/-- The written form of an integer. -/
theorem wire_integer (number : Int) :
    (integer number).wire = 0x3A :: (Numeral.ofInt number ++ Bytes.crlf) := by
  simp [wire, wireBefore, wireLine]

/-- The written form of a bulk string. -/
theorem wire_bulk (payload : Bytes) :
    (bulk payload).wire =
      0x24 :: ((Numeral.ofNat payload.length ++ Bytes.crlf) ++ (payload ++ Bytes.crlf)) := by
  simp [wire, wireBefore, wireLine]

/-- The written form of the absent bulk string. -/
theorem wire_absentBulk : absentBulk.wire = 0x24 :: (Numeral.ofInt (-1) ++ Bytes.crlf) :=
  rfl

/-- The written form of the absent array. -/
theorem wire_absentArray : absentArray.wire = 0x2A :: (Numeral.ofInt (-1) ++ Bytes.crlf) :=
  rfl

/-- The written form of an array. -/
theorem wire_array (items : List Value) :
    (array items).wire =
      0x2A :: ((Numeral.ofNat items.length ++ Bytes.crlf) ++ items.flatMap wire) := by
  simp [wire, wireBefore, wireLine, wireItems_eq]

/-! ## Written forms are wire forms -/

/-- A text without a line break holds no line terminator. -/
theorem not_crlf_infix_of_isLine {text : Bytes} (htext : isLine text = true) :
    ¬ Bytes.crlf <:+: text :=
  not_crlf_infix fun octet hmem => by
    have hoctet := List.all_eq_true.mp htext octet hmem
    simp only [Bool.and_eq_true, bne_iff_ne] at hoctet
    exact hoctet.1

/-- A length is written in few enough octets, if any numeral can denote it. -/
theorem length_ofNat_le {n : Nat} (hceiling : n < Numeral.ceiling) :
    (Numeral.ofNat n).length ≤ Numeral.maxLength :=
  (Numeral.length_ofNat_le_iff (by decide)).mpr hceiling

/-- The items of an array can be written if the first one and those behind it
can. -/
theorem itemsFault_cons {item : Value} {rest : List Value} :
    itemsFault? (item :: rest) = none ↔ item.encodeFault? = none ∧ itemsFault? rest = none := by
  rw [itemsFault?]
  cases item.encodeFault? <;> simp

section Forms

variable {limits : Limits}

mutual

/-- The written form of a value that can be written and that fits is a wire
form. -/
theorem wireForm_wire : ∀ (value : Value) {room : Nat}, value.encodeFault? = none →
    value.Fits limits room → WireForm limits room value value.wire
  | .simple text, room, hwritten, hfits => by
      have htext : isLine text = true := by simpa [encodeFault?] using hwritten
      rw [wire_simple]
      exact .simple hfits (not_crlf_infix_of_isLine htext)
  | .error text, room, hwritten, hfits => by
      have htext : isLine text = true := by simpa [encodeFault?] using hwritten
      rw [wire_error]
      exact .error hfits (not_crlf_infix_of_isLine htext)
  | .integer number, room, hwritten, _ => by
      have hnumber : Numeral.fits64 number = true := by simpa [encodeFault?] using hwritten
      rw [wire_integer]
      exact .integer (Numeral.denotes_ofInt number) (Numeral.length_ofInt_le hnumber)
        (Numeral.fits64_iff.mp hnumber)
  | .bulk payload, _, _, hfits => by
      rw [wire_bulk]
      exact .bulk (Numeral.denotes_ofInt payload.length) (length_ofNat_le hfits.2) hfits.1
  | .absentBulk, _, _, _ => .absentBulk (Numeral.denotes_ofInt (-1)) (by decide)
  | .null, _, _, _ => .null
  | .absentArray, room + 1, _, _ => .absentArray (Numeral.denotes_ofInt (-1)) (by decide)
  | .array items, room + 1, hwritten, hfits => by
      rw [wire_array]
      exact .array (Numeral.denotes_ofInt items.length) (length_ofNat_le hfits.2.1.2)
        hfits.2.1.1 (itemForms_wire items hwritten hfits.2.2)

/-- The written forms of items that can be written and that fit are wire
forms. -/
theorem itemForms_wire : ∀ (items : List Value) {room : Nat}, itemsFault? items = none →
    ItemsFit limits room items → ItemForms limits room items (items.flatMap wire)
  | [], _, _, _ => .nil
  | item :: rest, _, hwritten, hfits => by
      rcases itemsFault_cons.mp hwritten with ⟨hitem, hrest⟩
      rw [List.flatMap_cons]
      exact .cons (wireForm_wire item hitem hfits.1) (itemForms_wire rest hrest hfits.2)

end

/-- A value that can be written and that fits is read from its written form. -/
theorem reads_wire (value : Value) {room : Nat} (offset : Nat)
    (hwritten : value.encodeFault? = none) (hfits : value.Fits limits room) :
    Reads (readValue limits room) offset value.wire value :=
  (value.wireForm_wire hwritten hfits).reads offset

end Forms

end Value

/-! ## What has been read fits -/

section Fits

variable {limits : Limits}

/-- A numeral that is short enough denotes a number below the ceiling. -/
theorem Numeral.natAbs_lt_ceiling {numeral : Bytes} {number : Int}
    (hnumeral : Numeral.Denotes numeral number) (hlength : numeral.length ≤ Numeral.maxLength) :
    number.natAbs < Numeral.ceiling :=
  calc number.natAbs < 10 ^ numeral.length := hnumeral.natAbs_lt
    _ ≤ 10 ^ Numeral.maxLength := Nat.pow_le_pow_right (by decide) hlength

mutual

/-- A value that has a wire form fits. -/
theorem WireForm.fits : ∀ {room : Nat} {value : Value} {octets : Bytes},
    WireForm limits room value octets → value.Fits limits room
  | _, _, _, .simple hlimit _ => hlimit
  | _, _, _, .error hlimit _ => hlimit
  | _, _, _, .integer _ _ _ => trivial
  | _, _, _, .bulk hnumeral hlength hlimit =>
      ⟨hlimit, Numeral.natAbs_lt_ceiling hnumeral hlength⟩
  | _, _, _, .absentBulk _ _ => trivial
  | _, _, _, .array hnumeral hlength hlimit hitems =>
      ⟨Nat.succ_pos _, ⟨hlimit, Numeral.natAbs_lt_ceiling hnumeral hlength⟩, hitems.fit⟩
  | _, _, _, .absentArray _ _ => Nat.succ_pos _
  | _, _, _, .null => trivial

/-- Items that have wire forms fit. -/
theorem ItemForms.fit : ∀ {room : Nat} {items : List Value} {octets : Bytes},
    ItemForms limits room items octets → Value.ItemsFit limits room items
  | _, _, _, .nil => trivial
  | _, _, _, .cons hitem hitems => ⟨hitem.fits, hitems.fit⟩

end

/-- A value that has been read fits. -/
theorem Value.fits_of_read {room : Nat} {cursor next : Cursor} {value : Value}
    (hread : readValue limits room cursor = .ok (value, next)) : value.Fits limits room := by
  obtain ⟨used, -, hform⟩ := readValue_yields limits room cursor value next hread
  exact hform.fits

/-- A value that can be written is decoded where its written form stands exactly if it
fits, whatever stands before and behind it. -/
theorem Value.decode_wire_iff {value : Value} (hwritten : value.encodeFault? = none)
    (before after : Bytes) :
    decode limits (before ++ value.wire ++ after) before.length =
        .ok (value, before.length + value.wire.length) ↔ value.Fits limits limits.depth := by
  rw [decode_eq_ok, List.append_assoc, List.drop_left]
  constructor
  · rintro ⟨next, hread, -⟩
    exact Value.fits_of_read hread
  · intro hfits
    exact ⟨_, value.reads_wire before.length hwritten hfits after, rfl⟩

/-- Only octets that begin with the tag of arrays are read as an array. -/
theorem head_of_read_array {room offset : Nat} {octets : Bytes} {value : Value} {next : Cursor}
    (hread : readValue limits room ⟨offset, octets⟩ = .ok (value, next))
    (hkind : value.kind = .array) : ∃ rest, octets = 0x2A :: rest := by
  obtain ⟨used, hsplit, hform⟩ := readValue_yields limits room _ value next hread
  cases hform with
  | array hnumeral hlength hlimit hitems => exact ⟨_, hsplit⟩
  | absentArray hnumeral hlength => exact ⟨_, hsplit⟩
  | simple | error | integer | bulk | absentBulk | null => cases hkind

end Fits

end DurableStore
