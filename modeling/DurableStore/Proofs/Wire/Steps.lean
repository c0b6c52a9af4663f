import DurableStore.Wire.Decode

/-!
# The steps of a reader

Most readers of the wire format take a first step, such as reading a line or a
numeral, and go on with what it found.  This module names the second steps and
states each reader once as the composition of its two steps, so that a property
of readers which composition preserves needs no further look at their
definitions.

Main results:

- Structure `Steps`: a reader is the composition of two steps.
- Theorems `readNumber_steps` to `readItems_steps`: the steps of the readers.
- Theorems `readValue_nil` to `readValue_scalar`: what the first octet of a
  value decides.
-/

namespace DurableStore

/-! ## Composition -/

/-- A function that reads a value off the input. -/
abbrev Reader (ε α : Type) := Cursor → Except ε (α × Cursor)

section Steps

variable {ε ε' α β : Type}

/-- The reader `whole` takes the step `first` and goes on with the value it
found; an error of the first step is reworded. -/
structure Steps (first : Reader ε α) (second : α → Reader ε' β) (reword : ε → ε')
    (whole : Reader ε' β) : Prop where
  ok : ∀ {cursor value next}, first cursor = .ok (value, next) →
    whole cursor = second value next
  error : ∀ {cursor fault}, first cursor = .error fault → whole cursor = .error (reword fault)

/-- A reader that succeeds has succeeded in both steps. -/
theorem Steps.of_ok {first : Reader ε α} {second : α → Reader ε' β} {reword : ε → ε'}
    {whole : Reader ε' β} (hsteps : Steps first second reword whole) {cursor next : Cursor}
    {value : β} (hread : whole cursor = .ok (value, next)) :
    ∃ found middle, first cursor = .ok (found, middle) ∧
      second found middle = .ok (value, next) := by
  cases hfirst : first cursor with
  | error fault =>
      rw [hsteps.error hfirst] at hread
      cases hread
  | ok outcome =>
      rcases outcome with ⟨found, middle⟩
      rw [hsteps.ok hfirst] at hread
      exact ⟨found, middle, rfl, hread⟩

end Steps

/-! ## Lines and numerals -/

/-- How the numeral reader words the errors of the line reader. -/
def Fault.inNumber (field : NumberField) : Fault → Fault
  | .longLine offset limit => .longNumber field offset limit
  | fault => fault

/-- What the numeral reader makes of a line. -/
def readDigits (field : NumberField) (line : Bytes) : Reader Fault Int := fun next =>
  match Numeral.parse? line with
  | some number => .ok (number, next)
  | none => .error (.badNumber field line)

/-- A numeral is a line and what it denotes. -/
theorem readNumber_steps (field : NumberField) :
    Steps (readLine Numeral.maxLength) (readDigits field) (Fault.inNumber field)
      (readNumber field) where
  ok hline := by
    simp only [readNumber, hline]
    rfl
  error {_ fault} hline := by
    simp only [readNumber, hline]
    cases fault <;> rfl

/-- A text is a line. -/
theorem readText_steps (limits : Limits) (make : Bytes → Value) :
    Steps (readLine limits.line) (fun line next => .ok (make line, next)) id
      (readText limits make) where
  ok hline := by simp only [readText, hline]
  error hline := by simp only [readText, hline, id]

/-! ## Values other than arrays -/

/-- What the integer reader makes of a number. -/
def readWord (number : Int) : Reader Fault Value := fun next =>
  if Numeral.fits64 number then .ok (.integer number, next) else .error (.wideInteger number)

/-- An integer is a numeral that fits 64 bits. -/
theorem readInteger_steps : Steps (readNumber .integer) readWord id readInteger where
  ok hnumber := by
    simp only [readInteger, hnumber]
    rfl
  error hnumber := by simp only [readInteger, hnumber, id]

/-- What the bulk string reader makes of a length. -/
def readBody (limits : Limits) (length : Int) : Reader Fault Value := fun next =>
  if length = -1 then .ok (.absentBulk, next)
  else if length < 0 ∨ (limits.bulk : Int) < length then .error (.badLength .bulkLength length)
  else readPayload length.toNat next

/-- A bulk string is a length and a body. -/
theorem readBulk_steps (limits : Limits) :
    Steps (readNumber .bulkLength) (readBody limits) id (readBulk limits) where
  ok hlength := by
    simp only [readBulk, hlength]
    rfl
  error hlength := by simp only [readBulk, hlength, id]

/-! ## Arrays and values in general -/

/-- What the array reader makes of an item count. -/
def readCounted (limits : Limits) (readItem : Reader DecodeError Value) (count : Int) :
    Reader DecodeError Value := fun next =>
  if count = -1 then .ok (.absentArray, next)
  else if count < 0 ∨ (limits.array : Int) < count then
    .error (.here (.badLength .arrayLength count))
  else readItems readItem count.toNat [] next

/-- An array is an item count and the items. -/
theorem readArray_steps (limits : Limits) (readItem : Reader DecodeError Value) :
    Steps (readNumber .arrayLength) (readCounted limits readItem) DecodeError.here
      (readArray limits readItem) where
  ok hcount := by
    simp only [readArray, hcount]
    rfl
  error hcount := by simp only [readArray, hcount]

/-- Several items are one item and those behind it. -/
theorem readItems_steps (readItem : Reader DecodeError Value) (count : Nat)
    (done : List Value) :
    Steps readItem (fun item => readItems readItem count (item :: done))
      (DecodeError.within done.length) (readItems readItem (count + 1) done) where
  ok hitem := by simp only [readItems, hitem]
  error hitem := by simp only [readItems, hitem]

/-- What follows the tag of a value that is no array, with errors that have a
position. -/
def readTagged (limits : Limits) (tag : Tag) : Reader DecodeError Value := fun cursor =>
  (readScalar limits tag cursor).mapError .here

/-- Giving errors a position is a second step that does nothing. -/
theorem readTagged_steps (limits : Limits) (tag : Tag) :
    Steps (readScalar limits tag) (fun value next => .ok (value, next)) DecodeError.here
      (readTagged limits tag) where
  ok hread := by
    rw [readTagged, hread]
    rfl
  error hread := by
    rw [readTagged, hread]
    rfl

/-- No value begins at the end of the input. -/
theorem readValue_nil (limits : Limits) (room offset : Nat) :
    readValue limits room ⟨offset, []⟩ = .error (.here (.noValue offset)) := by
  rw [readValue]

/-- An octet that is no type tag begins no value. -/
theorem readValue_unknown {octet : UInt8} (hnone : Tag.ofOctet? octet = none) (limits : Limits)
    (room offset : Nat) (octets : Bytes) :
    readValue limits room ⟨offset, octet :: octets⟩ =
      .error (.here (.unknownTag octet offset)) := by
  rw [readValue]
  simp only [hnone]

/-- Where there is room for an array, its tag leads to its items. -/
theorem readValue_array {octet : UInt8} (harray : Tag.ofOctet? octet = some .array)
    (limits : Limits) (room offset : Nat) (octets : Bytes) :
    readValue limits (room + 1) ⟨offset, octet :: octets⟩ =
      readArray limits (readValue limits room) ⟨offset + 1, octets⟩ := by
  rw [readValue]
  simp only [harray]
  rfl

/-- Any other tag, and that of an array for which there is no room, leads to
what follows the tag. -/
theorem readValue_scalar {octet : UInt8} {tag : Tag} {room : Nat}
    (htag : Tag.ofOctet? octet = some tag) (hscalar : tag = .array → room = 0)
    (limits : Limits) (offset : Nat) (octets : Bytes) :
    readValue limits room ⟨offset, octet :: octets⟩ =
      readTagged limits tag ⟨offset + 1, octets⟩ := by
  rw [readValue]
  simp only [htag]
  split
  · contradiction
  · rename_i harray
    cases harray
    cases hscalar rfl
  · rename_i hsame _
    cases hsame
    rfl

/-- A property of readers that holds of every value reader with less room holds
of one: the octets are none, begin with no tag, or begin with a tag whose
reader has the property. -/
theorem readValue_cases (limits : Limits) (room : Nat) {motive : Bytes → Prop}
    (hnil : motive [])
    (hunknown : ∀ octet octets, Tag.ofOctet? octet = none → motive (octet :: octets))
    (hscalar : ∀ octet octets tag, Tag.ofOctet? octet = some tag →
      (∀ offset tail, readValue limits room ⟨offset, octet :: tail⟩ =
        readTagged limits tag ⟨offset + 1, tail⟩) → motive (octet :: octets))
    (harray : ∀ octet octets inner, room = inner + 1 → Tag.ofOctet? octet = some .array →
      (∀ offset tail, readValue limits room ⟨offset, octet :: tail⟩ =
        readArray limits (readValue limits inner) ⟨offset + 1, tail⟩) →
        motive (octet :: octets))
    (octets : Bytes) : motive octets := by
  cases octets with
  | nil => exact hnil
  | cons octet octets =>
      cases htag : Tag.ofOctet? octet with
      | none => exact hunknown octet octets htag
      | some tag =>
          by_cases hroom : tag = .array → room = 0
          · exact hscalar octet octets tag htag
              fun offset tail => readValue_scalar htag hroom limits offset tail
          · rcases Classical.not_imp.mp hroom with ⟨rfl, hpositive⟩
            rcases Nat.exists_eq_succ_of_ne_zero hpositive with ⟨inner, rfl⟩
            exact harray octet octets inner rfl htag
              fun offset tail => readValue_array htag limits inner offset tail

end DurableStore
