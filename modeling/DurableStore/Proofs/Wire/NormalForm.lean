import DurableStore.Proofs.Wire.ReadBack

/-!
# Normal forms

Among the wire forms of a value there is one whose numerals have no octet too many.
This is the form that is written, and no wire form is shorter.  A value that has been
decoded is written back in this form, and read from it again, unless a carriage return
or a line feed stands on its own in one of its texts: such a text is read, but never
written.

Main results:

- Definition `NormalForm` and theorem `normalForm_iff`: a grammar of what is written.
- Theorem `WireForm.length_wire_le`: no wire form is shorter than the written one.
- Theorem `WireForm.encodeFault`: only a line break keeps a decoded value from being
  written.
- Theorem `decode_writtenBack`: what writing a decoded value comes to.
-/

namespace DurableStore

open Numeral (Denotes Plain)

/-! ## The grammar of what is written -/

mutual

/-- The octets are the normal form of the value: no text holds a line break, and no
numeral has an octet too many. -/
inductive NormalForm : Value → Bytes → Prop
  /-- `+`, a text without a line break, and a line terminator. -/
  | simple {text : Bytes} (hline : ¬ (0x0D ∈ text ∨ 0x0A ∈ text)) :
      NormalForm (.simple text) (0x2B :: (text ++ Bytes.crlf))
  /-- `-`, a text without a line break, and a line terminator. -/
  | error {text : Bytes} (hline : ¬ (0x0D ∈ text ∨ 0x0A ∈ text)) :
      NormalForm (.error text) (0x2D :: (text ++ Bytes.crlf))
  /-- `:`, the plain numeral of a 64-bit integer, and a line terminator. -/
  | integer {numeral : Bytes} {number : Int} (hnumeral : Denotes numeral number)
      (hplain : Plain numeral) (hrange : -2 ^ 63 ≤ number ∧ number ≤ 2 ^ 63 - 1) :
      NormalForm (.integer number) (0x3A :: (numeral ++ Bytes.crlf))
  /-- `$`, the plain numeral of the length of a payload, a line terminator, the payload,
  and a line terminator. -/
  | bulk {numeral payload : Bytes} (hnumeral : Denotes numeral payload.length)
      (hplain : Plain numeral) :
      NormalForm (.bulk payload) (0x24 :: ((numeral ++ Bytes.crlf) ++ (payload ++ Bytes.crlf)))
  /-- `$`, the plain numeral of minus one, and a line terminator. -/
  | absentBulk {numeral : Bytes} (hnumeral : Denotes numeral (-1)) (hplain : Plain numeral) :
      NormalForm .absentBulk (0x24 :: (numeral ++ Bytes.crlf))
  /-- `*`, the plain numeral of the number of items, a line terminator, and the normal
  forms of the items. -/
  | array {numeral : Bytes} {items : List Value} {forms : Bytes}
      (hnumeral : Denotes numeral items.length) (hplain : Plain numeral)
      (hitems : ItemNormalForms items forms) :
      NormalForm (.array items) (0x2A :: ((numeral ++ Bytes.crlf) ++ forms))
  /-- `*`, the plain numeral of minus one, and a line terminator. -/
  | absentArray {numeral : Bytes} (hnumeral : Denotes numeral (-1)) (hplain : Plain numeral) :
      NormalForm .absentArray (0x2A :: (numeral ++ Bytes.crlf))
  /-- `_` and a line terminator. -/
  | null : NormalForm .null (0x5F :: Bytes.crlf)

/-- The octets are the normal forms of the values, one behind the other. -/
inductive ItemNormalForms : List Value → Bytes → Prop
  /-- There are no values. -/
  | nil : ItemNormalForms [] []
  /-- A value and those behind it. -/
  | cons {item : Value} {items : List Value} {form forms : Bytes}
      (hitem : NormalForm item form) (hitems : ItemNormalForms items forms) :
      ItemNormalForms (item :: items) (form ++ forms)

end

mutual

/-- A normal form is the written form of a value that can be written. -/
theorem NormalForm.eq_wire : ∀ {value : Value} {octets : Bytes}, NormalForm value octets →
    value.encodeFault? = none ∧ value.wire = octets
  | _, _, .simple hline => by
      rw [Value.wire_simple, Value.encodeFault?, if_pos (Value.isLine_iff.mpr hline)]
      exact ⟨rfl, rfl⟩
  | _, _, .error hline => by
      rw [Value.wire_error, Value.encodeFault?, if_pos (Value.isLine_iff.mpr hline)]
      exact ⟨rfl, rfl⟩
  | _, _, .integer hnumeral hplain hrange => by
      rw [Value.wire_integer, Value.encodeFault?, if_pos (Numeral.fits64_iff.mpr hrange),
        hnumeral.plain_iff.mp hplain]
      exact ⟨rfl, rfl⟩
  | _, _, .bulk hnumeral hplain => by
      rw [Value.wire_bulk, hnumeral.plain_iff.mp hplain]
      exact ⟨rfl, rfl⟩
  | _, _, .absentBulk hnumeral hplain => by
      rw [Value.wire_absentBulk, hnumeral.plain_iff.mp hplain]
      exact ⟨rfl, rfl⟩
  | _, _, .absentArray hnumeral hplain => by
      rw [Value.wire_absentArray, hnumeral.plain_iff.mp hplain]
      exact ⟨rfl, rfl⟩
  | _, _, .array hnumeral hplain hitems => by
      obtain ⟨hwritten, hforms⟩ := hitems.eq_wire
      rw [Value.wire_array, hnumeral.plain_iff.mp hplain, hforms]
      exact ⟨hwritten, rfl⟩
  | _, _, .null => ⟨rfl, rfl⟩

/-- Normal forms of items are the written forms of items that can be written. -/
theorem ItemNormalForms.eq_wire : ∀ {items : List Value} {forms : Bytes},
    ItemNormalForms items forms →
      Value.itemsFault? items = none ∧ items.flatMap Value.wire = forms
  | _, _, .nil => ⟨rfl, rfl⟩
  | _, _, .cons hitem hitems => by
      obtain ⟨hfirst, hform⟩ := hitem.eq_wire
      obtain ⟨hrest, hforms⟩ := hitems.eq_wire
      rw [List.flatMap_cons, hform, hforms]
      exact ⟨Value.itemsFault_cons.mpr ⟨hfirst, hrest⟩, rfl⟩

end

mutual

/-- The written form of a value that can be written is a normal form. -/
theorem Value.normalForm_wire : ∀ value : Value, value.encodeFault? = none →
    NormalForm value value.wire
  | .simple text, hwritten => by
      have htext : isLine text = true := by simpa [encodeFault?] using hwritten
      rw [wire_simple]
      exact .simple (isLine_iff.mp htext)
  | .error text, hwritten => by
      have htext : isLine text = true := by simpa [encodeFault?] using hwritten
      rw [wire_error]
      exact .error (isLine_iff.mp htext)
  | .integer number, hwritten => by
      have hnumber : Numeral.fits64 number = true := by simpa [encodeFault?] using hwritten
      rw [wire_integer]
      exact .integer (Numeral.denotes_ofInt number) (Numeral.plain_ofInt number)
        (Numeral.fits64_iff.mp hnumber)
  | .bulk payload, _ => by
      rw [wire_bulk]
      exact .bulk (Numeral.denotes_ofInt payload.length) (Numeral.plain_ofInt payload.length)
  | .array items, hwritten => by
      rw [wire_array]
      exact .array (Numeral.denotes_ofInt items.length) (Numeral.plain_ofInt items.length)
        (itemNormalForms_wire items hwritten)
  | .absentBulk, _ => .absentBulk (Numeral.denotes_ofInt (-1)) (Numeral.plain_ofInt (-1))
  | .absentArray, _ => .absentArray (Numeral.denotes_ofInt (-1)) (Numeral.plain_ofInt (-1))
  | .null, _ => .null

/-- The written forms of items that can be written are normal forms. -/
theorem Value.itemNormalForms_wire : ∀ items : List Value, itemsFault? items = none →
    ItemNormalForms items (items.flatMap wire)
  | [], _ => .nil
  | item :: rest, hwritten => by
      obtain ⟨hitem, hrest⟩ := itemsFault_cons.mp hwritten
      rw [List.flatMap_cons]
      exact .cons (normalForm_wire item hitem) (itemNormalForms_wire rest hrest)

end

/-- Encoding writes the normal form of a value, which is the only one. -/
theorem normalForm_iff {value : Value} {octets : Bytes} :
    NormalForm value octets ↔ value.encode = .ok octets := by
  rw [Value.encode_eq_ok]
  constructor
  · exact NormalForm.eq_wire
  · rintro ⟨hwritten, rfl⟩
    exact value.normalForm_wire hwritten

/-! ## No wire form is shorter -/

section WireForms

variable {limits : Limits}

/-- No line with a numeral of a number is shorter than that with the shortest numeral. -/
theorem length_numeralLine_le {numeral : Bytes} {number : Int}
    (hnumeral : Denotes numeral number) :
    (Numeral.ofInt number ++ Bytes.crlf).length ≤ (numeral ++ Bytes.crlf).length := by
  rw [List.length_append, List.length_append]
  exact Nat.add_le_add_right hnumeral.length_ofInt_le _

/-- The same holds with octets behind the lines. -/
theorem length_numeralLine_append_le {numeral tail form : Bytes} {number : Int}
    (hnumeral : Denotes numeral number) (htail : tail.length ≤ form.length) :
    ((Numeral.ofInt number ++ Bytes.crlf) ++ tail).length ≤
      ((numeral ++ Bytes.crlf) ++ form).length := by
  have hline := length_numeralLine_le hnumeral
  simp only [List.length_append] at hline ⊢
  omega

mutual

/-- No wire form of a value is shorter than its written form. -/
theorem WireForm.length_wire_le : ∀ {room : Nat} {value : Value} {octets : Bytes},
    WireForm limits room value octets → value.wire.length ≤ octets.length
  | _, _, _, .simple _ _ => by rw [Value.wire_simple]
  | _, _, _, .error _ _ => by rw [Value.wire_error]
  | _, _, _, .integer hnumeral _ _ => by
      rw [Value.wire_integer]
      exact Nat.succ_le_succ (length_numeralLine_le hnumeral)
  | _, _, _, .bulk hnumeral _ _ => by
      rw [Value.wire_bulk]
      exact Nat.succ_le_succ (length_numeralLine_append_le hnumeral (Nat.le_refl _))
  | _, _, _, .absentBulk hnumeral _ => by
      rw [Value.wire_absentBulk]
      exact Nat.succ_le_succ (length_numeralLine_le hnumeral)
  | _, _, _, .absentArray hnumeral _ => by
      rw [Value.wire_absentArray]
      exact Nat.succ_le_succ (length_numeralLine_le hnumeral)
  | _, _, _, .array hnumeral _ _ hitems => by
      rw [Value.wire_array]
      exact Nat.succ_le_succ (length_numeralLine_append_le hnumeral hitems.length_wire_le)
  | _, _, _, .null => Nat.le_refl _

/-- No wire forms of items are shorter than their written forms. -/
theorem ItemForms.length_wire_le : ∀ {room : Nat} {items : List Value} {forms : Bytes},
    ItemForms limits room items forms → (items.flatMap Value.wire).length ≤ forms.length
  | _, _, _, .nil => Nat.le_refl _
  | _, _, _, .cons hitem hitems => by
      rw [List.flatMap_cons, List.length_append, List.length_append]
      exact Nat.add_le_add hitem.length_wire_le hitems.length_wire_le

end

/-! ## What keeps a decoded value from being written -/

/-- Each item has a wire form among those of the items. -/
theorem ItemForms.mem : ∀ {room : Nat} {items : List Value} {forms : Bytes},
    ItemForms limits room items forms → ∀ item ∈ items, ∃ form, WireForm limits room item form
  | _, _, _, .nil, _, hmem => absurd hmem List.not_mem_nil
  | _, _, _, .cons hfirst hrest, item, hmem => by
      rcases List.mem_cons.mp hmem with rfl | hlater
      · exact ⟨_, hfirst⟩
      · exact hrest.mem item hlater

/-- Every part of a value that has a wire form has one. -/
theorem WireForm.part {room : Nat} {value part : Value} {octets : Bytes}
    (hform : WireForm limits room value octets) (hoccurs : part.OccursIn value) :
    ∃ room form, WireForm limits room part form := by
  induction hoccurs generalizing room octets with
  | self => exact ⟨room, octets, hform⟩
  | inside hmem hoccurs ih =>
      cases hform with
      | array hnumeral hlength hlimit hitems =>
          obtain ⟨form, hitem⟩ := hitems.mem _ hmem
          exact ih hitem

end WireForms

namespace Value

/-- A status or error text with a line break stands somewhere in a value. -/
def LineBreak (value : Value) (text : Bytes) : Prop :=
  ((simple text).OccursIn value ∨ (error text).OccursIn value) ∧ (0x0D ∈ text ∨ 0x0A ∈ text)

/-- The first obstacle to writing items is that of one of them. -/
theorem itemsFault_eq_some {items : List Value} {obstacle : EncodeError}
    (hfault : itemsFault? items = some obstacle) :
    ∃ item ∈ items, item.encodeFault? = some obstacle := by
  induction items with
  | nil => cases hfault
  | cons item items ih =>
      rw [itemsFault?] at hfault
      split at hfault
      · rename_i found hfound
        exact ⟨item, List.mem_cons_self, hfound.trans hfault⟩
      · obtain ⟨other, hmem, hother⟩ := ih hfault
        exact ⟨other, List.mem_cons_of_mem _ hmem, hother⟩

/-- The first obstacle to writing a value is that of a part which is no array. -/
theorem encodeFault_eq_some {value : Value} {obstacle : EncodeError}
    (hfault : value.encodeFault? = some obstacle) :
    ∃ part : Value, part.OccursIn value ∧ (∀ items, part ≠ .array items) ∧
      part.encodeFault? = some obstacle := by
  induction value using induction_items with
  | harray items ih =>
      obtain ⟨item, hmem, hitem⟩ := itemsFault_eq_some hfault
      obtain ⟨part, hoccurs, hleaf, hpart⟩ := ih item hmem hitem
      exact ⟨part, .inside hmem hoccurs, hleaf, hpart⟩
  | hleaf value hleaf => exact ⟨value, .self value, hleaf, hfault⟩

end Value

/-- Only a line break in a text keeps a value that has a wire form from being written. -/
theorem WireForm.encodeFault {limits : Limits} {room : Nat} {value : Value} {octets : Bytes}
    (hform : WireForm limits room value octets) {obstacle : EncodeError}
    (hfault : value.encodeFault? = some obstacle) :
    ∃ text, value.LineBreak text ∧ obstacle = .lineBreak text := by
  obtain ⟨part, hoccurs, hleaf, hpart⟩ := Value.encodeFault_eq_some hfault
  obtain ⟨room, form, hpartForm⟩ := hform.part hoccurs
  cases hpartForm with
  | @simple room text =>
      have htext : ¬ Value.isLine text = true ∧ .lineBreak text = obstacle := by
        simpa [Value.encodeFault?] using hpart
      rw [Value.isLine_iff, not_not] at htext
      exact ⟨text, ⟨.inl hoccurs, htext.1⟩, htext.2.symm⟩
  | @error room text =>
      have htext : ¬ Value.isLine text = true ∧ .lineBreak text = obstacle := by
        simpa [Value.encodeFault?] using hpart
      rw [Value.isLine_iff, not_not] at htext
      exact ⟨text, ⟨.inr hoccurs, htext.1⟩, htext.2.symm⟩
  | integer hnumeral hlength hrange =>
      rw [Value.encodeFault?, if_pos (Numeral.fits64_iff.mpr hrange)] at hpart
      cases hpart
  | array hnumeral hlength hlimit hitems => exact absurd rfl (hleaf _)
  | bulk | absentBulk | absentArray | null => cases hpart

/-! ## Writing decoded values back -/

/-- A decoded value is written back as these octets. -/
structure WrittenBack (limits : Limits) (value : Value) (stop : Nat) (octets : Bytes) :
    Prop where
  /-- The value can be written. -/
  encode : value.encode = .ok octets
  /-- This takes no more octets than were decoded. -/
  length_le : octets.length ≤ stop
  /-- The same reader takes the value off what was written, and nothing is left. -/
  decode : decode limits octets 0 = .ok (value, octets.length)
  /-- What was written is the normal form of the value, and the only one. -/
  normal : ∀ other, NormalForm value other ↔ other = octets
  /-- Decoding and encoding once more changes nothing. -/
  stable : ∀ again stop, DurableStore.decode limits octets 0 = .ok (again, stop) →
    again.encode = .ok octets

/-- A decoded value cannot be written if a line break stands in one of its status or error
texts, and is written back otherwise. -/
theorem decode_writtenBack {limits : Limits} {data : Bytes} {value : Value} {stop : Nat}
    (hdecode : decode limits data 0 = .ok (value, stop)) :
    (∃ text, value.LineBreak text ∧ value.encode = .error (.lineBreak text)) ∨
      (∀ text, ¬ value.LineBreak text) ∧ ∃ octets, WrittenBack limits value stop octets := by
  obtain ⟨next, hread, rfl⟩ := decode_eq_ok.mp hdecode
  obtain ⟨used, -, hstop, hform⟩ := readValue_eq_ok.mp hread
  cases hfault : value.encodeFault? with
  | some obstacle =>
      obtain ⟨text, hbreak, rfl⟩ := hform.encodeFault hfault
      exact .inl ⟨text, hbreak, by rw [Value.encode, hfault]⟩
  | none =>
      have hencode : value.encode = .ok value.wire := Value.encode_eq_ok.mpr ⟨hfault, rfl⟩
      have hagain : decode limits value.wire 0 = .ok (value, value.wire.length) := by
        have hreads := value.reads_wire 0 hfault hform.fits []
        rw [List.append_nil] at hreads
        exact decode_eq_ok.mpr ⟨_, hreads, Nat.zero_add _⟩
      refine .inr ⟨?_, value.wire, ?_⟩
      · rintro text ⟨hoccurs, hbreak⟩
        have hparts := Value.encodeFault_eq_none.mp hfault
        rcases hoccurs with hsimple | herror
        · exact hparts _ hsimple hbreak
        · exact hparts _ herror hbreak
      · constructor
        case encode => exact hencode
        case length_le =>
          rw [hstop, Nat.zero_add]
          exact hform.length_wire_le
        case decode => exact hagain
        case normal =>
          intro other
          rw [normalForm_iff, hencode, Except.ok.injEq, eq_comm]
        case stable =>
          intro again stop hdecoded
          cases hagain.symm.trans hdecoded
          exact hencode

/-- Signs and zeros that a reader passes over are left out when the value is written back. -/
theorem decode_writtenBack_padded :
    decode .standard (Bytes.ofString "*+2\r\n:-007\r\n$-00\r\n\r\n") 0 =
        .ok (.array [.integer (-7), .bulk []], 20) ∧
      ((∃ text, (Value.array [.integer (-7), .bulk []]).LineBreak text ∧
          (Value.array [.integer (-7), .bulk []]).encode = .error (.lineBreak text)) ∨
        (∀ text, ¬ (Value.array [.integer (-7), .bulk []]).LineBreak text) ∧
          ∃ octets, WrittenBack .standard (.array [.integer (-7), .bulk []]) 20 octets) := by
  have hdecode : decode .standard (Bytes.ofString "*+2\r\n:-007\r\n$-00\r\n\r\n") 0 =
      .ok (.array [.integer (-7), .bulk []], 20) := by
    decide +kernel
  exact ⟨hdecode, decode_writtenBack hdecode⟩

/-- Not every decoded value can be written back: a line feed on its own in the text of a
status line is read. -/
theorem loneFeed_not_writtenBack :
    ¬ ∀ limits data value stop, decode limits data 0 = .ok (value, stop) →
      ∃ octets, value.encode = .ok octets := by
  intro hwritten
  obtain ⟨octets, hoctets⟩ := hwritten .standard (Bytes.ofString "+a\nb\r\n")
    (.simple (Bytes.ofString "a\nb")) 6 rfl
  have hrefused : (Value.simple (Bytes.ofString "a\nb")).encode =
      .error (.lineBreak (Bytes.ofString "a\nb")) := rfl
  cases hrefused.symm.trans hoctets

end DurableStore
