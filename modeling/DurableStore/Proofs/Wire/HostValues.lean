import DurableStore.Proofs.Text.HostTexts
import DurableStore.Proofs.Wire.ReadBack
import DurableStore.Wire.HostValue
import Mathlib.Data.List.Forall2

/-!
# Values of the host application, written and read back

What the encoder makes of a value of the host application is what it makes of the value
whose texts are octets, and of the values that the decoder hands out nothing is lost.
An application can build more: a text with a surrogate that stands for no octet cannot be
written, and surrogates that stand for the octets of a character are read back as the
character.

Main results:

- Definition `HostValue.parts`: all values that stand in a value.
- Theorem `HostValue.written_eq_error`: which values cannot be written.
- Theorem `HostValue.host_eq_iff`: which values are read back as they were.
- Theorem `HostValue.decodeHost_encode`: decoding undoes encoding within the limits and
  fails beyond them.
- Theorem `Value.encode_host`: values that have been decoded are encoded like values whose
  texts are octets.
-/

namespace DurableStore

namespace HostValue

/-! ## The parts of a value -/

mutual

/-- All values that stand somewhere in a value, itself included. -/
def parts : HostValue → List HostValue
  | .array items => .array items :: partsAmong items
  | leaf => [leaf]

/-- All values that stand somewhere in the items of an array. -/
def partsAmong : List HostValue → List HostValue
  | [] => []
  | item :: rest => parts item ++ partsAmong rest

end

/-- What stands in the items of an array stands in one of them. -/
theorem mem_partsAmong {part : HostValue} {items : List HostValue} :
    part ∈ partsAmong items ↔ ∃ item ∈ items, part ∈ item.parts := by
  induction items with
  | nil => simp [partsAmong]
  | cons item items ih => simp [partsAmong, ih]

/-- A value that is no array has no part but itself. -/
theorem parts_leaf {given : HostValue} (hleaf : ∀ items, given ≠ .array items) :
    given.parts = [given] := by
  cases given with
  | array items => exact absurd rfl (hleaf items)
  | _ => rfl

section Induction

variable {motive : HostValue → Prop}

mutual

/-- What holds of an array if it holds of its items, and of every other value, holds of all
values of the host application. -/
theorem induction_parts
    (harray : ∀ items, (∀ item ∈ items, motive item) → motive (.array items))
    (hleaf : ∀ given, (∀ items, given ≠ .array items) → motive given) : ∀ given, motive given
  | .array items => harray items (induction_among harray hleaf items)
  | .simple _ | .error _ | .integer _ | .bulk _ | .absentBulk | .absentArray | .null
  | .foreign _ => hleaf _ nofun

/-- What holds of all values holds of the members of a list. -/
theorem induction_among
    (harray : ∀ items, (∀ item ∈ items, motive item) → motive (.array items))
    (hleaf : ∀ given, (∀ items, given ≠ .array items) → motive given) :
    ∀ items : List HostValue, ∀ item ∈ items, motive item
  | [], _, hmem => absurd hmem List.not_mem_nil
  | first :: rest, item, hmem =>
      (List.mem_cons.mp hmem).elim (fun hfirst => hfirst ▸ induction_parts harray hleaf first)
        (induction_among harray hleaf rest item)

end

end Induction

/-! ## Which values can be written -/

/-- A value that cannot be written, whatever stands around it. -/
def Unwritable : HostValue → Prop
  | .simple text | .error text =>
      .char '\r' ∈ text ∨ .char '\n' ∈ text ∨
        ∃ index, .surrogate index ∈ text ∧ CodePoint.isEscape index = false
  | .integer number => number < -2 ^ 63 ∨ 2 ^ 63 - 1 < number
  | .foreign _ => True
  | .bulk _ | .absentBulk | .array _ | .absentArray | .null => False

/-- A text is written if it holds no line break and all its surrogates stand for octets. -/
theorem lineOctets_eq_ok {text : HostText} {octets : Bytes} :
    lineOctets text = .ok octets ↔
      (.char '\r' ∉ text ∧ .char '\n' ∉ text) ∧ Text.write text = .ok octets := by
  unfold lineOctets
  by_cases hbreak : .char '\r' ∈ text ∨ .char '\n' ∈ text
  · rw [if_pos (by simpa using hbreak)]
    simp only [reduceCtorEq, false_iff, not_and]
    rintro ⟨hreturn, hfeed⟩
    exact absurd hbreak (not_or.mpr ⟨hreturn, hfeed⟩)
  · rw [if_neg (by simpa using hbreak)]
    cases Text.write text <;> simp [not_or.mp hbreak]

/-- The value of a text that is written holds the octets of the text. -/
theorem map_lineOctets_eq_ok {text : HostText} {form : Bytes → Value} {value : Value} :
    (lineOctets text).map form = .ok value ↔
      ∃ octets, ((.char '\r' ∉ text ∧ .char '\n' ∉ text) ∧ Text.write text = .ok octets) ∧
        form octets = value := by
  simp only [← lineOctets_eq_ok]
  cases lineOctets text <;> simp [Except.map]

/-- A text that is not written holds a line break, or a surrogate that stands for no
octet. -/
theorem lineOctets_eq_error {text : HostText} :
    (∃ obstacle, lineOctets text = .error obstacle) ↔ (simple text).Unwritable := by
  rw [Unwritable, ← Text.write_eq_error]
  unfold lineOctets
  by_cases hbreak : .char '\r' ∈ text ∨ .char '\n' ∈ text
  · rw [if_pos (by simpa using hbreak), ← or_assoc]
    simp [hbreak]
  · rw [if_neg (by simpa using hbreak), ← or_assoc]
    cases Text.write text <;> simp [hbreak]

/-- The items of an array are written if each of them is. -/
theorem writtenItems_eq_ok {items : List HostValue} {values : List Value} :
    writtenItems items = .ok values ↔
      List.Forall₂ (fun item value => item.written = .ok value) items values := by
  induction items generalizing values with
  | nil =>
      rw [writtenItems, List.forall₂_nil_left_iff, Except.ok.injEq, eq_comm]
  | cons item items ih =>
      rw [writtenItems, List.forall₂_cons_left_iff]
      cases hitem : item.written with
      | error obstacle => simp
      | ok value =>
          cases hrest : writtenItems items with
          | error obstacle =>
              simp only [hrest, reduceCtorEq, false_iff] at ih
              simp [Except.map, ih]
          | ok rest =>
              simp only [Except.map, Except.ok.injEq, ← ih, hrest]
              constructor
              · rintro rfl
                exact ⟨value, rest, rfl, rfl, rfl⟩
              · rintro ⟨_, _, rfl, rfl, rfl⟩
                rfl

/-- They are not if one of them is not. -/
theorem writtenItems_eq_error {items : List HostValue} :
    (∃ obstacle, writtenItems items = .error obstacle) ↔
      ∃ item ∈ items, ∃ obstacle, item.written = .error obstacle := by
  induction items with
  | nil => simp [writtenItems]
  | cons item items ih =>
      rw [writtenItems, List.exists_mem_cons_iff, ← ih]
      cases item.written with
      | error obstacle => simp
      | ok value => cases writtenItems items <;> simp [Except.map]

/-- A value is not written exactly if one of its parts cannot be. -/
theorem written_eq_error {given : HostValue} :
    (∃ obstacle, given.written = .error obstacle) ↔ ∃ part ∈ given.parts, part.Unwritable := by
  induction given using induction_parts with
  | harray items ih =>
      have hitems : (∃ obstacle, (array items).written = .error obstacle) ↔
          ∃ obstacle, writtenItems items = .error obstacle := by
        rw [written]
        cases writtenItems items <;> simp [Except.map]
      rw [hitems, writtenItems_eq_error, parts, List.exists_mem_cons_iff]
      simp only [Unwritable, false_or, mem_partsAmong]
      constructor
      · rintro ⟨item, hitem, hfails⟩
        obtain ⟨part, hpart, hunwritable⟩ := (ih item hitem).mp hfails
        exact ⟨part, ⟨item, hitem, hpart⟩, hunwritable⟩
      · rintro ⟨part, ⟨item, hitem, hpart⟩, hunwritable⟩
        exact ⟨item, hitem, (ih item hitem).mpr ⟨part, hpart, hunwritable⟩⟩
  | hleaf given hleaf =>
      rw [parts_leaf hleaf]
      simp only [List.mem_singleton, exists_eq_left]
      cases given with
      | array items => exact absurd rfl (hleaf items)
      | simple text =>
          rw [← lineOctets_eq_error, written]
          cases lineOctets text <;> simp [Except.map]
      | error text =>
          have hsame : (error text).Unwritable ↔ (simple text).Unwritable := Iff.rfl
          rw [hsame, ← lineOctets_eq_error, written]
          cases lineOctets text <;> simp [Except.map]
      | integer number =>
          have hrange : number < -2 ^ 63 ∨ 2 ^ 63 - 1 < number ↔
              ¬ Numeral.fits64 number = true := by
            rw [Numeral.fits64_iff]
            omega
          rw [written, Unwritable, hrange]
          by_cases hfits : Numeral.fits64 number = true <;> simp [hfits]
      | bulk _ | absentBulk | absentArray | null | foreign _ => simp [written, Unwritable]

/-! ## Which values keep within the limits -/

/-- The length of a payload, or the number of items of an array. -/
def size : HostValue → Nat
  | .bulk payload => payload.length
  | .array items => items.length
  | _ => 0

/-- A value keeps within the limits, as far as the items of arrays and the depth of nesting
are not concerned; a text has the length of its octets. -/
def Bounded (limits : Limits) : HostValue → Prop
  | .simple text | .error text => (text.flatMap CodePoint.octets).length ≤ limits.line
  | .bulk payload => payload.length ≤ limits.bulk
  | .array items => items.length ≤ limits.array
  | .integer _ | .absentBulk | .absentArray | .null | .foreign _ => True

mutual

/-- The depth of the arrays of a value, absent ones included. -/
def nesting : HostValue → Nat
  | .array items => nestingAmong items + 1
  | .absentArray => 1
  | .simple _ | .error _ | .integer _ | .bulk _ | .absentBulk | .null | .foreign _ => 0

/-- The depth of the arrays of the deepest of several values. -/
def nestingAmong : List HostValue → Nat
  | [] => 0
  | item :: rest => max (nesting item) (nestingAmong rest)

end

/-- A value keeps within the limits: all its parts do, and so does its depth. -/
structure Within (limits : Limits) (given : HostValue) : Prop where
  bounded : ∀ part ∈ given.parts, part.Bounded limits
  nesting_le : given.nesting ≤ limits.depth

/-- A text in the place of a value is one that octets are read as. -/
def IsRead : HostValue → Prop
  | .simple text | .error text => Text.IsRead text
  | .integer _ | .bulk _ | .absentBulk | .array _ | .absentArray | .null | .foreign _ => True

/-! ## What is written -/

/-- What is written of a value of the host application. -/
inductive Writes : HostValue → Value → Prop
  | simple {text : HostText} {octets : Bytes} (hbreak : .char '\r' ∉ text ∧ .char '\n' ∉ text)
      (hwrite : Text.write text = .ok octets) : Writes (.simple text) (.simple octets)
  | error {text : HostText} {octets : Bytes} (hbreak : .char '\r' ∉ text ∧ .char '\n' ∉ text)
      (hwrite : Text.write text = .ok octets) : Writes (.error text) (.error octets)
  | integer {number : Int} (hfits : Numeral.fits64 number = true) :
      Writes (.integer number) (.integer number)
  | bulk (payload : Bytes) : Writes (.bulk payload) (.bulk payload)
  | absentBulk : Writes .absentBulk .absentBulk
  | array {items : List HostValue} {values : List Value}
      (hitems : List.Forall₂ (fun item value => item.written = .ok value) items values) :
      Writes (.array items) (.array values)
  | absentArray : Writes .absentArray .absentArray
  | null : Writes .null .null

section Written

variable {given : HostValue} {value : Value} {items : List HostValue} {values : List Value}

/-- A value that is written is written part by part. -/
theorem writes (hwritten : given.written = .ok value) : Writes given value := by
  cases given with
  | simple text =>
      obtain ⟨octets, ⟨hbreak, hwrite⟩, rfl⟩ := map_lineOctets_eq_ok.mp hwritten
      exact .simple hbreak hwrite
  | error text =>
      obtain ⟨octets, ⟨hbreak, hwrite⟩, rfl⟩ := map_lineOctets_eq_ok.mp hwritten
      exact .error hbreak hwrite
  | integer number =>
      rw [written] at hwritten
      split at hwritten
      · rename_i hfits
        cases hwritten
        exact .integer hfits
      · cases hwritten
  | array items =>
      rw [written] at hwritten
      cases hitems : writtenItems items with
      | error obstacle => simp [hitems, Except.map] at hwritten
      | ok values =>
          simp only [hitems, Except.map, Except.ok.injEq] at hwritten
          rw [← hwritten]
          exact .array (writtenItems_eq_ok.mp hitems)
  | bulk payload =>
      cases hwritten
      exact .bulk payload
  | absentBulk =>
      cases hwritten
      exact .absentBulk
  | absentArray =>
      cases hwritten
      exact .absentArray
  | null =>
      cases hwritten
      exact .null
  | foreign object => cases hwritten

/-- What holds of values and of what is written of them holds of the members of a list and of
what is written of these. -/
theorem forall_written {P : HostValue → Prop} {Q : Value → Prop}
    (hall : List.Forall₂ (fun item value => item.written = .ok value) items values)
    (hsame : ∀ item ∈ items, ∀ value, item.written = .ok value → (P item ↔ Q value)) :
    (∀ item ∈ items, P item) ↔ ∀ value ∈ values, Q value := by
  induction hall with
  | nil => simp
  | cons hfirst hrest ih =>
      obtain ⟨hone, hothers⟩ := List.forall_mem_cons.mp hsame
      rw [List.forall_mem_cons, List.forall_mem_cons, hone _ hfirst, ih hothers]

/-- What holds of a value alike whether or not it is written holds of its parts alike. -/
theorem forall_parts {P : HostValue → Prop} {Q : Value → Prop}
    (hsame : ∀ part value, part.written = .ok value → (P part ↔ Q value))
    (hwritten : given.written = .ok value) :
    (∀ part ∈ given.parts, P part) ↔ ∀ part : Value, part.OccursIn value → Q part := by
  induction given using induction_parts generalizing value with
  | harray items ih =>
      have hself := hsame _ _ hwritten
      cases writes hwritten with
      | array hall =>
          have hitems : (∀ part ∈ partsAmong items, P part) ↔
              ∀ item ∈ items, ∀ part ∈ item.parts, P part := by
            simp only [mem_partsAmong]
            exact ⟨fun hparts item hitem part hpart => hparts part ⟨item, hitem, hpart⟩,
              fun hparts part ⟨item, hitem, hpart⟩ => hparts item hitem part hpart⟩
          rw [parts, List.forall_mem_cons, hitems, Value.forall_occursIn_array, hself,
            forall_written hall fun item hitem value hvalue => ih item hitem hvalue]
  | hleaf given hleaf =>
      have hother : ∀ values, value ≠ .array values := by
        rintro values rfl
        cases writes hwritten with
        | array hall => exact hleaf _ rfl
      rw [parts_leaf hleaf, Value.forall_occursIn_leaf hother, List.forall_mem_singleton]
      exact hsame _ _ hwritten

/-- What is written can be written. -/
theorem encodeFault_of_written (hwritten : given.written = .ok value) :
    value.encodeFault? = none := by
  have hall : ∀ part ∈ given.parts, True := fun _ _ => trivial
  rw [Value.encodeFault_eq_none]
  refine (forall_parts (fun part value hpart => ?_) hwritten).mp hall
  rw [true_iff]
  cases writes hpart with
  | simple hbreak hwrite | error hbreak hwrite =>
      exact Value.isLine_iff.mp ((Text.isLine_write hwrite).mpr hbreak)
  | integer hfits =>
      have hrange := Numeral.fits64_iff.mp hfits
      rw [Value.Unwritable]
      omega
  | bulk _ | absentBulk | array _ | absentArray | null => exact id

/-- What is written has the same size. -/
theorem size_written (hwritten : given.written = .ok value) : value.size = given.size := by
  cases writes hwritten with
  | array hall => exact hall.length_eq.symm
  | _ => rfl

/-- What is written keeps within the same limits. -/
theorem bounded_written {limits : Limits} (hwritten : given.written = .ok value) :
    given.Bounded limits ↔ value.Bounded limits := by
  cases writes hwritten with
  | simple hbreak hwrite | error hbreak hwrite =>
      rw [Bounded, (Text.write_eq_ok.mp hwrite).2]
      exact Iff.rfl
  | array hall =>
      rw [Bounded, hall.length_eq]
      exact Iff.rfl
  | _ => exact Iff.rfl

/-- Items that are written are nested as deep if each of them is. -/
theorem nestingAmong_written
    (hall : List.Forall₂ (fun item value => item.written = .ok value) items values)
    (hsame : ∀ item ∈ items, ∀ value, item.written = .ok value → value.nesting = item.nesting) :
    Value.nestingAmong values = nestingAmong items := by
  induction hall with
  | nil => rfl
  | cons hfirst hrest ih =>
      obtain ⟨hone, hothers⟩ := List.forall_mem_cons.mp hsame
      rw [Value.nestingAmong, nestingAmong, hone _ hfirst, ih hothers]

/-- What is written is nested as deep. -/
theorem nesting_written (hwritten : given.written = .ok value) :
    value.nesting = given.nesting := by
  induction given using induction_parts generalizing value with
  | harray items ih =>
      cases writes hwritten with
      | array hall =>
          rw [Value.nesting, nesting,
            nestingAmong_written hall fun item hitem value hvalue => ih item hitem hvalue]
  | hleaf given hleaf =>
      cases writes hwritten with
      | array hall => exact absurd rfl (hleaf _)
      | _ => rfl

/-- What is written keeps within the limits exactly if the value does. -/
theorem within_written {limits : Limits} (hwritten : given.written = .ok value) :
    given.Within limits ↔ value.Within limits := by
  have hparts : (∀ part ∈ given.parts, part.Bounded limits) ↔
      ∀ part : Value, part.OccursIn value → part.Bounded limits :=
    forall_parts (fun part value hpart => bounded_written hpart) hwritten
  have hnesting := nesting_written hwritten
  constructor
  · rintro ⟨hbounded, hdepth⟩
    exact ⟨hparts.mp hbounded, hnesting.symm ▸ hdepth⟩
  · rintro ⟨hbounded, hdepth⟩
    exact ⟨hparts.mpr hbounded, hnesting ▸ hdepth⟩

/-! ## What is read back -/

/-- Items that are written are read back if each of them is. -/
theorem hostItems_written {P : HostValue → Prop}
    (hall : List.Forall₂ (fun item value => item.written = .ok value) items values)
    (hsame : ∀ item ∈ items, ∀ value, item.written = .ok value → (value.host = item ↔ P item)) :
    Value.hostItems values = items ↔ ∀ item ∈ items, P item := by
  induction hall with
  | nil => simp [Value.hostItems]
  | cons hfirst hrest ih =>
      obtain ⟨hone, hothers⟩ := List.forall_mem_cons.mp hsame
      rw [Value.hostItems, List.cons.injEq, hone _ hfirst, ih hothers, List.forall_mem_cons]

/-- What is written is read back as it was exactly if all its texts are such that octets are
read as. -/
theorem host_eq_iff (hwritten : given.written = .ok value) :
    value.host = given ↔ ∀ part ∈ given.parts, part.IsRead := by
  induction given using induction_parts generalizing value with
  | harray items ih =>
      cases writes hwritten with
      | array hall =>
          have hitems := hostItems_written hall fun item hitem value hvalue => ih item hitem hvalue
          rw [Value.host, HostValue.array.injEq, hitems, parts, List.forall_mem_cons]
          simp only [IsRead, true_and, mem_partsAmong]
          exact ⟨fun hparts part ⟨item, hitem, hpart⟩ => hparts item hitem part hpart,
            fun hparts item hitem part hpart => hparts part ⟨item, hitem, hpart⟩⟩
  | hleaf given hleaf =>
      rw [parts_leaf hleaf, List.forall_mem_singleton]
      cases writes hwritten with
      | array hall => exact absurd rfl (hleaf _)
      | simple hbreak hwrite | error hbreak hwrite =>
          simp only [Value.host, IsRead, Text.isRead_iff hwrite, simple.injEq, error.injEq]
      | _ => simp [Value.host, IsRead]

end Written

end HostValue

/-- A value cannot be written exactly if a text with a line break or with a surrogate that
stands for no octet, a number beyond 64 bits, or an object that is no value stands somewhere
in it.  What has been written is read back, whatever follows it, if the value is within the
limits and its texts are such that octets are read as; it is refused as too large or too deep
if it is not within the limits.  Payloads and arrays whose size takes more than twenty digits
are left aside, because no length of so many digits is ever read. -/
theorem HostValue.decodeHost_encode (limits : Limits) (given : HostValue) :
    ((∃ obstacle, given.encode = .error obstacle) ↔ ∃ part ∈ given.parts, part.Unwritable) ∧
    ∀ octets, given.encode = .ok octets → (∀ part ∈ given.parts, part.size < 10 ^ 20) → ∀ tail,
      (given.Within limits → (∀ part ∈ given.parts, part.IsRead) →
        decodeHost limits (octets ++ tail) 0 = .ok (given, octets.length)) ∧
      (¬ given.Within limits →
        ∃ error, decodeHost limits (octets ++ tail) 0 = .error error ∧
          (error.kind = .invalidLength ∨ error.kind = .nestingDepth)) := by
  constructor
  · rw [← written_eq_error, encode]
    cases given.written <;> simp [Except.map]
  · intro octets hencode hsize tail
    rw [encode] at hencode
    cases hwritten : given.written with
    | error obstacle => simp [hwritten, Except.map] at hencode
    | ok value =>
        simp only [hwritten, Except.map, Except.ok.injEq] at hencode
        have hvalue : value.encode = .ok octets :=
          Value.encode_eq_ok.mpr ⟨encodeFault_of_written hwritten, hencode⟩
        have hsizes : ∀ part : Value, part.OccursIn value → part.size < 10 ^ 20 :=
          (forall_parts (fun part value hpart => by rw [size_written hpart]) hwritten).mp hsize
        obtain ⟨hreads, hrefuses⟩ := (Value.decode_encode limits value).2 octets hvalue hsizes tail
        rw [within_written hwritten, decodeHost]
        constructor
        · intro hwithin hread
          rw [hreads hwithin, Except.map, (host_eq_iff hwritten).mpr hread]
        · intro hbeyond
          obtain ⟨error, hdecode, hkind⟩ := hrefuses hbeyond
          exact ⟨error, by rw [hdecode]; rfl, hkind⟩

/-- A status text without a line break that cannot be written, and one that is written and
keeps within the limits but is read back as another: its two surrogates stand for the octets of
one character. -/
theorem HostValue.surrogates_not_writtenBack :
    let alone : HostText := [.surrogate 0]
    let pair : HostText := [.surrogate (CodePoint.escape 0xC3), .surrogate (CodePoint.escape 0xA9)]
    .char '\r' ∉ alone ∧ .char '\n' ∉ alone ∧
      (simple alone).encode = .error (.surrogates ⟨0, 0, 1⟩) ∧
      (simple pair).encode = .ok [0x2B, 0xC3, 0xA9, 0x0D, 0x0A] ∧
      (simple pair).Within .standard ∧
      decodeHost .standard [0x2B, 0xC3, 0xA9, 0x0D, 0x0A] 0 = .ok (simple [.char 'é'], 5) ∧
      simple pair ≠ simple [.char 'é'] := by
  refine ⟨by decide, by decide, rfl, rfl, ⟨fun part hpart => ?_, Nat.zero_le _⟩, rfl, by simp⟩
  rw [List.mem_singleton.mp hpart, Bounded]
  decide

/-! ## Values whose texts are octets -/

/-- Why a value cannot be written, as the host application is told. -/
def EncodeError.host : EncodeError → HostFault
  | .lineBreak text => .lineBreak (Text.read text)
  | .wideInteger number => .wideInteger number
  | .notAValue object => .notAValue object

/-- It is told in the same words. -/
theorem EncodeError.message_host (error : EncodeError) : error.host.message = error.message := by
  cases error <;> rfl

namespace Value

/-- A text that octets are read as is written in these octets, unless they hold a line
break. -/
theorem lineOctets_read (text : Bytes) :
    HostValue.lineOctets (Text.read text) =
      if isLine text then .ok text else .error (.lineBreak (Text.read text)) := by
  have hwrite := Text.write_read text
  have hline := Text.isLine_write hwrite
  by_cases hbreak : isLine text = true
  · rw [if_pos hbreak]
    exact HostValue.lineOctets_eq_ok.mpr ⟨hline.mp hbreak, hwrite⟩
  · rw [if_neg hbreak, HostValue.lineOctets, if_pos]
    rw [hline, ← not_or, not_not] at hbreak
    simpa using hbreak

mutual

/-- A value that the host application gets is written as the value that it is. -/
theorem written_host : ∀ value : Value, value.host.written =
    match value.encodeFault? with
    | some obstacle => .error obstacle.host
    | none => .ok value
  | .simple text | .error text => by
      rw [host, HostValue.written, lineOctets_read, encodeFault?]
      by_cases hline : isLine text = true <;> simp [hline, Except.map, EncodeError.host]
  | .integer number => by
      rw [host, HostValue.written, encodeFault?]
      by_cases hfits : Numeral.fits64 number = true <;> simp [hfits, EncodeError.host]
  | .array items => by
      rw [host, HostValue.written, encodeFault?, writtenItems_host items]
      cases itemsFault? items <;> rfl
  | .bulk _ | .absentBulk | .absentArray | .null | .foreign _ => rfl

/-- So are the items of an array. -/
theorem writtenItems_host : ∀ items : List Value, HostValue.writtenItems (hostItems items) =
    match itemsFault? items with
    | some obstacle => .error obstacle.host
    | none => .ok items
  | [] => rfl
  | item :: rest => by
      rw [hostItems, HostValue.writtenItems, itemsFault?, written_host item,
        writtenItems_host rest]
      cases encodeFault? item with
      | some obstacle => rfl
      | none => cases itemsFault? rest <;> rfl

end

/-- A value that the host application gets is encoded as the value that it is. -/
theorem encode_host (value : Value) :
    value.host.encode = value.encode.mapError EncodeError.host := by
  rw [HostValue.encode, written_host, encode]
  cases value.encodeFault? <;> rfl

end Value

end DurableStore
