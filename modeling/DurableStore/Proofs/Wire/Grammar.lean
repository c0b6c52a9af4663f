import DurableStore.Proofs.Number.Numerals
import DurableStore.Proofs.Wire.Prefixes
import Mathlib.Algebra.Group.Int.Defs
import Mathlib.Data.Set.Subsingleton

/-!
# The grammar of the wire format

A value has wire forms: a tag, then a text, a numeral or a payload between line
terminators, or for an array the wire forms of its items.  There are many for
one value, since a numeral may have a sign and leading zeros.  This module
states the wire forms as a grammar and shows that readers read by it: they
accept every wire form of a value that keeps within the limits, whatever follows
it, and nothing else.

Main results:

- Definition `WireForm`: the grammar, with the limits of a reader.
- Theorem `WireForm.reads`: every wire form is read.
- Theorem `readValue_yields`: nothing else is read.
- Theorem `decode_iff_wireForm`: decoding accepts exactly the grammar, which
  gives no octets two readings.
-/

namespace DurableStore

open Numeral (Denotes)

/-! ## Wire forms -/

mutual

/-- The octets are a wire form of the value, with room for `room` levels of
arrays. -/
inductive WireForm (limits : Limits) : Nat → Value → Bytes → Prop
  /-- `+`, a text without a line terminator inside, and a line terminator. -/
  | simple {room : Nat} {text : Bytes} (hlimit : text.length ≤ limits.line)
      (hline : ¬ Bytes.crlf <:+: text) :
      WireForm limits room (.simple text) (0x2B :: (text ++ Bytes.crlf))
  /-- `-`, a text without a line terminator inside, and a line terminator. -/
  | error {room : Nat} {text : Bytes} (hlimit : text.length ≤ limits.line)
      (hline : ¬ Bytes.crlf <:+: text) :
      WireForm limits room (.error text) (0x2D :: (text ++ Bytes.crlf))
  /-- `:`, a numeral of a 64-bit integer, and a line terminator. -/
  | integer {room : Nat} {numeral : Bytes} {number : Int} (hnumeral : Denotes numeral number)
      (hlength : numeral.length ≤ Numeral.maxLength)
      (hrange : -2 ^ 63 ≤ number ∧ number ≤ 2 ^ 63 - 1) :
      WireForm limits room (.integer number) (0x3A :: (numeral ++ Bytes.crlf))
  /-- `$`, a numeral of the length of a payload, a line terminator, the payload,
  and a line terminator. -/
  | bulk {room : Nat} {numeral payload : Bytes} (hnumeral : Denotes numeral payload.length)
      (hlength : numeral.length ≤ Numeral.maxLength) (hlimit : payload.length ≤ limits.bulk) :
      WireForm limits room (.bulk payload)
        (0x24 :: ((numeral ++ Bytes.crlf) ++ (payload ++ Bytes.crlf)))
  /-- `$`, a numeral of minus one, and a line terminator. -/
  | absentBulk {room : Nat} {numeral : Bytes} (hnumeral : Denotes numeral (-1))
      (hlength : numeral.length ≤ Numeral.maxLength) :
      WireForm limits room .absentBulk (0x24 :: (numeral ++ Bytes.crlf))
  /-- `*`, a numeral of the number of items, a line terminator, and wire forms
  of the items. -/
  | array {room : Nat} {numeral : Bytes} {items : List Value} {forms : Bytes}
      (hnumeral : Denotes numeral items.length) (hlength : numeral.length ≤ Numeral.maxLength)
      (hlimit : items.length ≤ limits.array) (hitems : ItemForms limits room items forms) :
      WireForm limits (room + 1) (.array items) (0x2A :: ((numeral ++ Bytes.crlf) ++ forms))
  /-- `*`, a numeral of minus one, and a line terminator. -/
  | absentArray {room : Nat} {numeral : Bytes} (hnumeral : Denotes numeral (-1))
      (hlength : numeral.length ≤ Numeral.maxLength) :
      WireForm limits (room + 1) .absentArray (0x2A :: (numeral ++ Bytes.crlf))
  /-- `_` and a line terminator. -/
  | null {room : Nat} : WireForm limits room .null (0x5F :: Bytes.crlf)

/-- The octets are wire forms of the values, one behind the other. -/
inductive ItemForms (limits : Limits) : Nat → List Value → Bytes → Prop
  /-- There are no values. -/
  | nil {room : Nat} : ItemForms limits room [] []
  /-- A value and those behind it. -/
  | cons {room : Nat} {item : Value} {items : List Value} {form forms : Bytes}
      (hitem : WireForm limits room item form) (hitems : ItemForms limits room items forms) :
      ItemForms limits room (item :: items) (form ++ forms)

end

/-! ## Wire forms are read -/

section Accepted

variable {limits : Limits} {offset : Nat} {numeral : Bytes}

/-- A string without a carriage return holds no line terminator. -/
theorem not_crlf_infix {line : Bytes} (hline : ∀ octet ∈ line, octet ≠ 0x0D) :
    ¬ Bytes.crlf <:+: line := by
  rintro ⟨before, behind, rfl⟩
  exact hline 0x0D (by simp [Bytes.crlf]) rfl

/-- A numeral that is short enough is read as the number it denotes. -/
theorem readNumber_reads (field : NumberField) {number : Int} (hnumeral : Denotes numeral number)
    (hlength : numeral.length ≤ Numeral.maxLength) :
    Reads (readNumber field) offset (numeral ++ Bytes.crlf) number := by
  have hline : ¬ Bytes.crlf <:+: numeral :=
    not_crlf_infix fun octet hmem => (hnumeral.ne_break hmem).1
  refine (readLine_reads hline hlength).finish (readNumber_steps field) fun next => ?_
  simp only [readDigits, hnumeral.parse]

/-- A text without a line terminator inside is read from its line. -/
theorem readText_reads (make : Bytes → Value) {text : Bytes} (hline : ¬ Bytes.crlf <:+: text)
    (hlimit : text.length ≤ limits.line) :
    Reads (readText limits make) offset (text ++ Bytes.crlf) (make text) :=
  (readLine_reads hline hlimit).finish (readText_steps limits make) fun _ => rfl

/-- The numbers of 64 bits. -/
theorem Numeral.fits64_iff {number : Int} :
    Numeral.fits64 number = true ↔ -2 ^ 63 ≤ number ∧ number ≤ 2 ^ 63 - 1 := by
  simp only [Numeral.fits64, Bool.and_eq_true, decide_eq_true_eq]
  omega

/-- An integer of 64 bits is read from its numeral. -/
theorem readInteger_reads {number : Int} (hnumeral : Denotes numeral number)
    (hlength : numeral.length ≤ Numeral.maxLength) (hfits : Numeral.fits64 number = true) :
    Reads readInteger offset (numeral ++ Bytes.crlf) (.integer number) :=
  (readNumber_reads .integer hnumeral hlength).finish readInteger_steps fun _ => if_pos hfits

/-- A payload is read from itself and a terminator. -/
theorem readPayload_reads (payload : Bytes) :
    Reads (readPayload payload.length) offset (payload ++ Bytes.crlf) (.bulk payload) := by
  intro tail
  have htwo : payload.length + 2 = (payload ++ Bytes.crlf).length := by simp [Bytes.crlf]
  simp only [readPayload, Cursor.advance]
  rw [htwo, List.drop_left, List.append_assoc, List.take_left, List.drop_left]
  simp [Bytes.crlf]

/-- A bulk string is read from its length and its payload. -/
theorem readBulk_reads {payload : Bytes} (hnumeral : Denotes numeral payload.length)
    (hlength : numeral.length ≤ Numeral.maxLength) (hlimit : payload.length ≤ limits.bulk) :
    Reads (readBulk limits) offset ((numeral ++ Bytes.crlf) ++ (payload ++ Bytes.crlf))
      (.bulk payload) := by
  refine (readNumber_reads .bulkLength hnumeral hlength).bind (readBulk_steps limits) ?_
  have habsent : ¬ (payload.length : Int) = -1 := by omega
  have hgood : ¬ ((payload.length : Int) < 0 ∨ (limits.bulk : Int) < payload.length) := by omega
  unfold readBody
  simpa only [if_neg habsent, if_neg hgood, Int.toNat_natCast] using readPayload_reads payload

/-- The absent bulk string is read from its length. -/
theorem readBulk_reads_absent (hnumeral : Denotes numeral (-1))
    (hlength : numeral.length ≤ Numeral.maxLength) :
    Reads (readBulk limits) offset (numeral ++ Bytes.crlf) .absentBulk :=
  (readNumber_reads .bulkLength hnumeral hlength).finish (readBulk_steps limits)
    fun _ => if_pos rfl

/-- The absent array is read from its item count. -/
theorem readArray_reads_absent (readItem : Reader DecodeError Value)
    (hnumeral : Denotes numeral (-1)) (hlength : numeral.length ≤ Numeral.maxLength) :
    Reads (readArray limits readItem) offset (numeral ++ Bytes.crlf) .absentArray :=
  (readNumber_reads .arrayLength hnumeral hlength).finish (readArray_steps limits readItem)
    fun _ => if_pos rfl

/-- Behind an item count that is within the limit, items are read. -/
theorem readCounted_natCast (readItem : Reader DecodeError Value) {count : Nat}
    (hlimit : count ≤ limits.array) :
    readCounted limits readItem (count : Int) = readItems readItem count [] := by
  have habsent : ¬ (count : Int) = -1 := by omega
  have hgood : ¬ ((count : Int) < 0 ∨ (limits.array : Int) < count) := by omega
  unfold readCounted
  simp only [if_neg habsent, if_neg hgood, Int.toNat_natCast]

/-- An array is read from its item count and its items. -/
theorem readArray_reads {readItem : Reader DecodeError Value} {items : List Value} {forms : Bytes}
    (hnumeral : Denotes numeral items.length) (hlength : numeral.length ≤ Numeral.maxLength)
    (hlimit : items.length ≤ limits.array)
    (hitems : ∀ offset, Reads (readItems readItem items.length []) offset forms (.array items)) :
    Reads (readArray limits readItem) offset ((numeral ++ Bytes.crlf) ++ forms)
      (.array items) := by
  refine (readNumber_reads .arrayLength hnumeral hlength).bind (readArray_steps limits readItem) ?_
  rw [readCounted_natCast readItem hlimit]
  exact hitems _

/-- A value that is no array is read from its tag and what follows it. -/
theorem readValue_reads_scalar {room : Nat} {octet : UInt8} {tag : Tag} {used : Bytes}
    {value : Value} (htag : Tag.ofOctet? octet = some tag) (hscalar : tag ≠ .array)
    (hread : Reads (readScalar limits tag) (offset + 1) used value) :
    Reads (readValue limits room) offset (octet :: used) value :=
  (hread.finish (readTagged_steps limits tag) fun _ => rfl).cons
    (readValue_scalar htag (fun harray => absurd harray hscalar) limits offset)

/-- An array is read from its tag and what follows it. -/
theorem readValue_reads_array {room : Nat} {used : Bytes} {value : Value}
    (hread : Reads (readArray limits (readValue limits room)) (offset + 1) used value) :
    Reads (readValue limits (room + 1)) offset (0x2A :: used) value :=
  hread.cons (readValue_array (by decide) limits room offset)

end Accepted

section Forms

variable {limits : Limits}

mutual

/-- Every wire form of a value is read as that value. -/
theorem WireForm.reads : ∀ {room : Nat} {value : Value} {octets : Bytes},
    WireForm limits room value octets → ∀ offset,
      Reads (readValue limits room) offset octets value
  | _, _, _, .simple hlimit hline, _ =>
      readValue_reads_scalar rfl (by decide) (readText_reads .simple hline hlimit)
  | _, _, _, .error hlimit hline, _ =>
      readValue_reads_scalar rfl (by decide) (readText_reads .error hline hlimit)
  | _, _, _, .integer hnumeral hlength hrange, _ =>
      readValue_reads_scalar rfl (by decide)
        (readInteger_reads hnumeral hlength (Numeral.fits64_iff.mpr hrange))
  | _, _, _, .bulk hnumeral hlength hlimit, _ =>
      readValue_reads_scalar rfl (by decide) (readBulk_reads hnumeral hlength hlimit)
  | _, _, _, .absentBulk hnumeral hlength, _ =>
      readValue_reads_scalar rfl (by decide) (readBulk_reads_absent hnumeral hlength)
  | _, _, _, .null, _ => readValue_reads_scalar rfl (by decide) fun _ => rfl
  | _, _, _, .absentArray hnumeral hlength, _ =>
      readValue_reads_array (readArray_reads_absent _ hnumeral hlength)
  | _, _, _, .array hnumeral hlength hlimit hitems, _ =>
      readValue_reads_array (readArray_reads hnumeral hlength hlimit fun offset =>
        hitems.reads [] offset)

/-- Wire forms of items are read as those items, behind the items that have
been read before. -/
theorem ItemForms.reads : ∀ {room : Nat} {items : List Value} {forms : Bytes},
    ItemForms limits room items forms → ∀ done offset,
      Reads (readItems (readValue limits room) items.length done) offset forms
        (.array (done.reverse ++ items))
  | _, _, _, .nil, done, _ => by
      intro tail
      simp [readItems]
  | _, _, _, .cons hitem hitems, done, offset => by
      refine (hitem.reads offset).bind (readItems_steps _ _ done) ?_
      simpa using hitems.reads (_ :: done) _

end

end Forms

/-! ## Nothing else is read -/

section Yields

variable {ε ε' α β : Type}

/-- The octets that a reader takes off the input have the given form for the
value that it returns. -/
def Yields (form : α → Bytes → Prop) (read : Reader ε α) : Prop :=
  ∀ cursor value next, read cursor = .ok (value, next) →
    ∃ used, cursor.rest = used ++ next.rest ∧ form value used

/-- A reader of two steps takes what its first step takes and, behind that, what
its second step takes. -/
theorem Yields.bind {first : Reader ε α} {second : α → Reader ε' β} {whole : Reader ε' β}
    {reword : ε → ε'} (hsteps : Steps first second reword whole) {form : α → Bytes → Prop}
    {form' : β → Bytes → Prop} (hfirst : Yields form first)
    (hsecond : ∀ found head, form found head →
      Yields (fun value used => form' value (head ++ used)) (second found)) :
    Yields form' whole := by
  intro cursor value next hread
  obtain ⟨found, middle, hfound, hrest⟩ := hsteps.of_ok hread
  obtain ⟨head, hhead, hform⟩ := hfirst cursor found middle hfound
  obtain ⟨used, hused, hform'⟩ := hsecond found head hform middle value next hrest
  exact ⟨head ++ used, by rw [hhead, hused, List.append_assoc], hform'⟩

/-- A reader that takes nothing off the input. -/
theorem Yields.pure {read : Reader ε α} {form : α → Bytes → Prop} (value : α)
    (hread : ∀ cursor, read cursor = .ok (value, cursor)) (hform : form value []) :
    Yields form read := by
  intro cursor value' next hvalue
  rw [hread cursor] at hvalue
  cases hvalue
  exact ⟨[], rfl, hform⟩

/-- A reader that always fails. -/
theorem Yields.fail {read : Reader ε α} {form : α → Bytes → Prop} (error : ε)
    (hread : ∀ cursor, read cursor = .error error) : Yields form read := by
  intro cursor value next hvalue
  rw [hread cursor] at hvalue
  cases hvalue

end Yields

/-- The octets are a line within the limit and its terminator. -/
def LineForm (limit : Nat) (line used : Bytes) : Prop :=
  used = line ++ Bytes.crlf ∧ line.length ≤ limit ∧ ¬ Bytes.crlf <:+: line

/-- The octets are a numeral that denotes the number, and a line terminator. -/
def NumberForm (number : Int) (used : Bytes) : Prop :=
  ∃ numeral, used = numeral ++ Bytes.crlf ∧ numeral.length ≤ Numeral.maxLength ∧
    Denotes numeral number

/-- A line reader takes a line. -/
theorem readLine_yields (limit : Nat) : Yields (LineForm limit) (readLine limit) := by
  intro cursor line next hread
  cases hfound : findLineEnd limit 0 cursor.rest with
  | «at» length =>
      rcases findLineEnd_at hfound with ⟨found, tail, hsplit, -, hlimit, hline⟩
      have hreads : Reads (readLine limit) cursor.offset (found ++ Bytes.crlf) found :=
        readLine_reads hline hlimit
      have hagain := hreads tail
      rw [← hsplit, hread] at hagain
      cases hagain
      exact ⟨line ++ Bytes.crlf, hsplit, rfl, hlimit, hline⟩
  | tooFar => simp [readLine, hfound] at hread
  | unseen length => simp [readLine, hfound] at hread

/-- A numeral reader takes a numeral. -/
theorem readNumber_yields (field : NumberField) : Yields NumberForm (readNumber field) := by
  refine .bind (readNumber_steps field) (readLine_yields Numeral.maxLength) ?_
  rintro line head ⟨rfl, hlength, -⟩
  cases hparse : Numeral.parse? line with
  | none => exact .fail (.badNumber field line) fun cursor => by simp only [readDigits, hparse]
  | some number =>
      refine .pure number (fun cursor => by simp only [readDigits, hparse]) ?_
      exact ⟨line, List.append_nil _, hlength, Numeral.parse_eq_some.mp hparse⟩

section Forms

variable (limits : Limits) {room : Nat}

/-- A text reader takes a text. -/
theorem readText_yields (make : Bytes → Value) :
    Yields (fun value used => ∃ line, value = make line ∧ LineForm limits.line line used)
      (readText limits make) := by
  refine .bind (readText_steps limits make) (readLine_yields limits.line) fun line head hline => ?_
  exact .pure (make line) (fun _ => rfl) ⟨line, rfl, by rwa [List.append_nil]⟩

/-- A payload reader takes a payload of the length it was told. -/
theorem readPayload_yields (length : Nat) :
    Yields (fun value used => ∃ payload, value = .bulk payload ∧ payload.length = length ∧
      used = payload ++ Bytes.crlf) (readPayload length) := by
  intro cursor value next hread
  unfold readPayload at hread
  split at hread
  · rename_i first second rest hdrop
    rcases drop_eq_cons_cons hdrop with ⟨payload, rfl, hsplit⟩
    split at hread
    · rename_i hend
      rcases hend with ⟨rfl, rfl⟩
      rw [hsplit, List.take_left] at hread
      cases hread
      have htwo : payload.length + 2 = (payload ++ Bytes.crlf).length := by simp [Bytes.crlf]
      refine ⟨payload ++ Bytes.crlf, ?_, payload, rfl, rfl, rfl⟩
      have hrest : cursor.rest = (payload ++ Bytes.crlf) ++ rest := by simp [hsplit, Bytes.crlf]
      rw [Cursor.advance, htwo, hrest, List.drop_left]
    · contradiction
  · contradiction

/-- Behind the tag of no array, the reader takes what follows the tag in a wire
form. -/
theorem readScalar_yields (tag : Tag) :
    Yields (fun value used => WireForm limits room value (tag.octet :: used))
      (readScalar limits tag) := by
  cases tag with
  | simple =>
      intro cursor value next hread
      obtain ⟨used, hsplit, text, rfl, rfl, hlimit, hline⟩ :=
        readText_yields limits .simple cursor value next hread
      exact ⟨_, hsplit, .simple hlimit hline⟩
  | error =>
      intro cursor value next hread
      obtain ⟨used, hsplit, text, rfl, rfl, hlimit, hline⟩ :=
        readText_yields limits .error cursor value next hread
      exact ⟨_, hsplit, .error hlimit hline⟩
  | integer =>
      refine .bind readInteger_steps (readNumber_yields .integer) ?_
      rintro number head ⟨numeral, rfl, hlength, hnumeral⟩
      by_cases hfits : Numeral.fits64 number = true
      · refine .pure (.integer number) (fun _ => if_pos hfits) ?_
        rw [List.append_nil]
        exact .integer hnumeral hlength (Numeral.fits64_iff.mp hfits)
      · exact .fail (.wideInteger number) fun _ => if_neg hfits
  | bulk =>
      refine .bind (readBulk_steps limits) (readNumber_yields .bulkLength) ?_
      rintro length head ⟨numeral, rfl, hlength, hnumeral⟩
      unfold readBody
      by_cases habsent : length = -1
      · subst habsent
        refine .pure .absentBulk (fun _ => if_pos rfl) ?_
        rw [List.append_nil]
        exact .absentBulk hnumeral hlength
      · by_cases hbad : length < 0 ∨ (limits.bulk : Int) < length
        · exact .fail (.badLength .bulkLength length)
            fun _ => by rw [if_neg habsent, if_pos hbad]
        · simp only [if_neg habsent, if_neg hbad]
          intro cursor value next hread
          obtain ⟨used, hsplit, payload, rfl, hpayload, rfl⟩ :=
            readPayload_yields length.toNat cursor value next hread
          obtain rfl : length = payload.length := by omega
          exact ⟨_, hsplit, .bulk hnumeral hlength (by omega)⟩
  | null =>
      intro cursor value next hread
      change readNull cursor = _ at hread
      unfold readNull at hread
      split at hread
      · rename_i first second rest hsplit
        split at hread
        · rename_i hend
          rcases hend with ⟨rfl, rfl⟩
          cases hread
          exact ⟨Bytes.crlf, by simp [Cursor.advance, hsplit, Bytes.crlf], .null⟩
        · contradiction
      · contradiction
  | array => exact .fail (.tooDeep limits.depth) fun _ => rfl

/-- A reader of items takes wire forms of as many items as it was told, if the
reader of one item takes wire forms. -/
theorem readItems_yields {readItem : Reader DecodeError Value}
    (hitem : Yields (WireForm limits room) readItem) (count : Nat) (done : List Value) :
    Yields (fun value used => ∃ items, value = .array (done.reverse ++ items) ∧
      items.length = count ∧ ItemForms limits room items used)
      (readItems readItem count done) := by
  induction count generalizing done with
  | zero => exact .pure (.array done.reverse) (fun _ => rfl) ⟨[], by simp, rfl, .nil⟩
  | succ count ih =>
      refine .bind (readItems_steps readItem count done) hitem fun item form hform => ?_
      intro cursor value next hread
      obtain ⟨forms, hsplit, items, rfl, hlength, hforms⟩ :=
        ih (item :: done) cursor value next hread
      exact ⟨forms, hsplit, item :: items, by simp, by simp [hlength], .cons hform hforms⟩

/-- An array reader takes what follows the tag of an array in a wire form, if
the reader of one item takes wire forms. -/
theorem readArray_yields {readItem : Reader DecodeError Value}
    (hitem : Yields (WireForm limits room) readItem) :
    Yields (fun value used => WireForm limits (room + 1) value (0x2A :: used))
      (readArray limits readItem) := by
  refine .bind (readArray_steps limits readItem) (readNumber_yields .arrayLength) ?_
  rintro count head ⟨numeral, rfl, hlength, hnumeral⟩
  unfold readCounted
  by_cases habsent : count = -1
  · subst habsent
    refine .pure .absentArray (fun _ => if_pos rfl) ?_
    rw [List.append_nil]
    exact .absentArray hnumeral hlength
  · by_cases hbad : count < 0 ∨ (limits.array : Int) < count
    · exact .fail (.here (.badLength .arrayLength count))
        fun _ => by rw [if_neg habsent, if_pos hbad]
    · simp only [if_neg habsent, if_neg hbad]
      intro cursor value next hread
      obtain ⟨forms, hsplit, items, rfl, hitems, hforms⟩ :=
        readItems_yields limits hitem count.toNat [] cursor value next hread
      obtain rfl : count = items.length := by omega
      have hlimit : items.length ≤ limits.array := by omega
      exact ⟨forms, hsplit, .array hnumeral hlength hlimit hforms⟩

/-- The octet that is a type tag is the octet of that tag. -/
theorem Tag.octet_of_ofOctet {octet : UInt8} {tag : Tag} (htag : ofOctet? octet = some tag) :
    octet = tag.octet := by
  unfold ofOctet? at htag
  repeat' split at htag
  all_goals cases htag
  all_goals assumption

/-- A value reader takes a wire form of the value that it returns. -/
theorem readValue_yields (room : Nat) : Yields (WireForm limits room) (readValue limits room) := by
  -- The induction is on the levels of arrays for which there is room.
  induction room using Nat.strongRecOn with
  | ind room ih =>
      rintro ⟨offset, octets⟩ value next
      induction octets using readValue_cases limits room with
      | hnil => simp [readValue_nil]
      | hunknown octet octets hnone => simp [readValue_unknown hnone]
      | hscalar octet octets tag htag hscalar =>
          intro hread
          rw [hscalar] at hread
          obtain ⟨found, middle, hfound, hdone⟩ := (readTagged_steps limits tag).of_ok hread
          cases hdone
          obtain ⟨used, hsplit, hform⟩ := readScalar_yields limits tag _ _ _ hfound
          rw [Tag.octet_of_ofOctet htag]
          exact ⟨tag.octet :: used, congrArg (tag.octet :: ·) hsplit, hform⟩
      | harray octet octets inner hroom htag harray =>
          intro hread
          subst hroom
          rw [harray] at hread
          obtain ⟨used, hsplit, hform⟩ :=
            readArray_yields limits (ih inner (Nat.lt_succ_self inner)) _ _ _ hread
          rw [Tag.octet_of_ofOctet htag]
          exact ⟨0x2A :: used, congrArg (0x2A :: ·) hsplit, hform⟩

end Forms

/-! ## Decoding -/

variable {limits : Limits}

/-- Decoding at an offset reads the value there. -/
theorem decode_eq_ok {data : Bytes} {offset stop : Nat} {value : Value} :
    decode limits data offset = .ok (value, stop) ↔
      ∃ next, readValue limits limits.depth ⟨offset, data.drop offset⟩ = .ok (value, next) ∧
        next.offset = stop := by
  unfold decode
  cases readValue limits limits.depth ⟨offset, data.drop offset⟩ with
  | error error => simp
  | ok outcome =>
      rcases outcome with ⟨found, next⟩
      constructor
      · intro hdecode
        cases hdecode
        exact ⟨next, rfl, rfl⟩
      · rintro ⟨next, hread, rfl⟩
        cases hread
        rfl

/-- Decoding at an offset fails as reading the value there does. -/
theorem decode_eq_error {data : Bytes} {offset : Nat} {error : DecodeError} :
    decode limits data offset = .error error ↔
      readValue limits limits.depth ⟨offset, data.drop offset⟩ = .error error := by
  unfold decode
  cases readValue limits limits.depth ⟨offset, data.drop offset⟩ <;> simp

/-- A value that has been read is read from a wire form of it, which ends where
the reader stops. -/
theorem readValue_eq_ok {room offset : Nat} {octets : Bytes} {value : Value} {next : Cursor} :
    readValue limits room ⟨offset, octets⟩ = .ok (value, next) ↔
      ∃ used, octets = used ++ next.rest ∧ next.offset = offset + used.length ∧
        WireForm limits room value used := by
  constructor
  · intro hread
    obtain ⟨used, hsplit, hform⟩ := readValue_yields limits room _ _ _ hread
    obtain ⟨used', hsplit', hoffset, -⟩ := readValue_reads hread
    obtain rfl : used = used' := List.append_cancel_right (hsplit.symm.trans hsplit')
    exact ⟨used, hsplit, hoffset, hform⟩
  · rintro ⟨used, rfl, hoffset, hform⟩
    rw [hform.reads offset next.rest, ← hoffset]

/-- Decoding accepts exactly the beginnings of a buffer that are wire forms, and
no buffer has two of them, or one of two values. -/
theorem decode_iff_wireForm (limits : Limits) (data : Bytes) :
    (∀ value stop, decode limits data 0 = .ok (value, stop) ↔
        stop ≤ data.length ∧ WireForm limits limits.depth value (data.take stop)) ∧
      {found : Value × Nat | found.2 ≤ data.length ∧
        WireForm limits limits.depth found.1 (data.take found.2)}.Subsingleton := by
  have haccepts : ∀ value stop, decode limits data 0 = .ok (value, stop) ↔
      stop ≤ data.length ∧ WireForm limits limits.depth value (data.take stop) := by
    intro value stop
    rw [decode_eq_ok, List.drop_zero]
    constructor
    · rintro ⟨next, hread, rfl⟩
      obtain ⟨used, hsplit, hoffset, hform⟩ := readValue_eq_ok.mp hread
      rw [hoffset, Nat.zero_add, hsplit, List.take_left, List.length_append]
      exact ⟨Nat.le_add_right _ _, hform⟩
    · rintro ⟨hstop, hform⟩
      refine ⟨⟨stop, data.drop stop⟩, readValue_eq_ok.mpr ⟨data.take stop, ?_, ?_, hform⟩, rfl⟩
      · rw [List.take_append_drop]
      · rw [List.length_take, Nat.zero_add, Nat.min_eq_left hstop]
  refine ⟨haccepts, fun found hfound other hother => ?_⟩
  have hsame := ((haccepts found.1 found.2).mpr hfound).symm.trans
    ((haccepts other.1 other.2).mpr hother)
  exact Except.ok.inj hsame

end DurableStore
