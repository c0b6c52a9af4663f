import DurableStore.Proofs.Wire.Prefixes

/-!
# Reading at another offset

What a reader makes of the octets before it does not depend on where they
stand: at another offset it reads the same value and stops behind the same
octet, or fails for the same reason, whose positions differ by the distance.

Main results:

- Theorem `readValue_shifts`: reading a value commutes with moving the input.
- Theorem `Reads.move`: octets that hold a value hold it at every offset.
- Theorem `readValue_moved`: the outcome of reading at an offset in terms of
  reading from the start of a copy.
-/

namespace DurableStore

/-! ## Moving positions -/

/-- The cause of a failure when the input stands `distance` octets further. -/
def Fault.shift (distance : Nat) : Fault → Fault
  | .noValue offset => .noValue (offset + distance)
  | .openLine offset length => .openLine (offset + distance) (length + distance)
  | .openNull offset => .openNull (offset + distance)
  | .shortBulk length needed => .shortBulk length (needed + distance)
  | .unknownTag octet offset => .unknownTag octet (offset + distance)
  | .longLine offset limit => .longLine (offset + distance) limit
  | .longNumber field offset limit => .longNumber field (offset + distance) limit
  | .nullBody offset => .nullBody (offset + distance)
  | .badNumber field line => .badNumber field line
  | .wideInteger number => .wideInteger number
  | .badLength field length => .badLength field length
  | .openBulk length => .openBulk length
  | .tooDeep limit => .tooDeep limit

/-- A failure when the input stands `distance` octets further. -/
def DecodeError.shift (distance : Nat) (error : DecodeError) : DecodeError :=
  { error with fault := error.fault.shift distance }

/-- A position when the input stands `distance` octets further. -/
def Cursor.shift (distance : Nat) (cursor : Cursor) : Cursor :=
  ⟨cursor.offset + distance, cursor.rest⟩

/-- Moving the input moves the least length that is asked for. -/
theorem Fault.needed_shift (distance : Nat) (fault : Fault) :
    (fault.shift distance).needed? = fault.needed?.map (· + distance) := by
  cases fault <;> simp only [Fault.shift, Fault.needed?, Option.map] <;> congr 1 <;> omega

/-- Moving the input does not make a failure final, or no longer final. -/
@[simp] theorem DecodeError.isShort_shift (distance : Nat) (error : DecodeError) :
    (error.shift distance).isShort = error.isShort := by
  simp [DecodeError.isShort, DecodeError.needed?, DecodeError.shift, Fault.needed_shift]

section Shifts

variable {ε ε' α β : Type}

/-- The outcome of reading when the input stands `distance` octets further. -/
def shiftOutcome (shift : ε → ε) (distance : Nat) :
    Except ε (α × Cursor) → Except ε (α × Cursor)
  | .ok (value, next) => .ok (value, next.shift distance)
  | .error error => .error (shift error)

/-- Reading commutes with moving the input. -/
def Shifts (shift : ε → ε) (distance : Nat) (read : Reader ε α) : Prop :=
  ∀ cursor, read (cursor.shift distance) = shiftOutcome shift distance (read cursor)

/-- A reader commutes with moving the input if both its steps do. -/
theorem Shifts.bind {shift : ε → ε} {shift' : ε' → ε'} {distance : Nat}
    {first : Reader ε α} {second : α → Reader ε' β} {whole : Reader ε' β} {reword : ε → ε'}
    (hsteps : Steps first second reword whole)
    (hreword : ∀ error, reword (shift error) = shift' (reword error))
    (hfirst : Shifts shift distance first)
    (hsecond : ∀ value, Shifts shift' distance (second value)) :
    Shifts shift' distance whole := by
  intro cursor
  have hmoved := hfirst cursor
  cases hread : first cursor with
  | ok outcome =>
      rcases outcome with ⟨value, next⟩
      rw [hread] at hmoved
      rw [hsteps.ok hread, hsteps.ok hmoved, hsecond value next]
  | error error =>
      rw [hread] at hmoved
      rw [hsteps.error hread, hsteps.error hmoved, hreword]
      rfl

end Shifts

/-! ## The readers -/

variable (distance : Nat)

/-- The line reader commutes with moving the input. -/
theorem readLine_shifts (limit : Nat) :
    Shifts (Fault.shift distance) distance (readLine limit) := by
  intro cursor
  simp only [readLine, Cursor.shift]
  cases findLineEnd limit 0 cursor.rest with
  | «at» length =>
      simp only [shiftOutcome, Cursor.advance, Cursor.shift, Except.ok.injEq, Prod.mk.injEq,
        Cursor.mk.injEq, and_true, true_and]
      omega
  | tooFar => rfl
  | unseen length =>
      simp only [shiftOutcome, Fault.shift, Except.error.injEq, Fault.openLine.injEq, true_and]
      omega

/-- The numeral reader commutes with moving the input. -/
theorem readNumber_shifts (field : NumberField) :
    Shifts (Fault.shift distance) distance (readNumber field) := by
  refine .bind (readNumber_steps field) (fun error => by cases error <;> rfl)
    (readLine_shifts distance Numeral.maxLength) fun line cursor => ?_
  unfold readDigits
  cases Numeral.parse? line <;> rfl

/-- The text reader commutes with moving the input. -/
theorem readText_shifts (limits : Limits) (make : Bytes → Value) :
    Shifts (Fault.shift distance) distance (readText limits make) :=
  .bind (readText_steps limits make) (fun _ => rfl) (readLine_shifts distance limits.line)
    fun _ _ => rfl

/-- The integer reader commutes with moving the input. -/
theorem readInteger_shifts : Shifts (Fault.shift distance) distance readInteger := by
  refine .bind readInteger_steps (fun _ => rfl) (readNumber_shifts distance .integer)
    fun number cursor => ?_
  unfold readWord
  split <;> rfl

/-- The payload reader commutes with moving the input. -/
theorem readPayload_shifts (length : Nat) :
    Shifts (Fault.shift distance) distance (readPayload length) := by
  intro cursor
  simp only [readPayload, Cursor.shift]
  split
  · split
    · simp only [shiftOutcome, Cursor.advance, Cursor.shift, Except.ok.injEq, Prod.mk.injEq,
        Cursor.mk.injEq, and_true, true_and]
      omega
    · rfl
  · simp only [shiftOutcome, Fault.shift, Except.error.injEq, Fault.shortBulk.injEq, true_and]
    omega

/-- The bulk string reader commutes with moving the input. -/
theorem readBulk_shifts (limits : Limits) :
    Shifts (Fault.shift distance) distance (readBulk limits) := by
  refine .bind (readBulk_steps limits) (fun _ => rfl) (readNumber_shifts distance .bulkLength)
    fun length cursor => ?_
  unfold readBody
  split
  · rfl
  · split
    · rfl
    · exact readPayload_shifts distance length.toNat cursor

/-- The null reader commutes with moving the input. -/
theorem readNull_shifts : Shifts (Fault.shift distance) distance readNull := by
  intro cursor
  simp only [readNull, Cursor.shift]
  split
  · split
    · simp only [shiftOutcome, Cursor.advance, Cursor.shift, Except.ok.injEq, Prod.mk.injEq,
        Cursor.mk.injEq, and_true, true_and]
      omega
    · rfl
  · rfl

/-- The reader of what follows a type tag commutes with moving the input. -/
theorem readScalar_shifts (limits : Limits) (tag : Tag) :
    Shifts (Fault.shift distance) distance (readScalar limits tag) := by
  cases tag with
  | simple => exact readText_shifts distance limits .simple
  | error => exact readText_shifts distance limits .error
  | integer => exact readInteger_shifts distance
  | bulk => exact readBulk_shifts distance limits
  | null => exact readNull_shifts distance
  | array => exact fun cursor => rfl

section Arrays

variable {readItem : Reader DecodeError Value}

/-- The reader of items commutes with moving the input if the reader of one
item does. -/
theorem readItems_shifts (hitem : Shifts (DecodeError.shift distance) distance readItem)
    (count : Nat) (done : List Value) :
    Shifts (DecodeError.shift distance) distance (readItems readItem count done) := by
  induction count generalizing done with
  | zero => exact fun cursor => rfl
  | succ count ih =>
      exact .bind (readItems_steps readItem count done) (fun _ => rfl) hitem
        fun item => ih (item :: done)

/-- The array reader commutes with moving the input if the reader of one item
does. -/
theorem readArray_shifts (limits : Limits)
    (hitem : Shifts (DecodeError.shift distance) distance readItem) :
    Shifts (DecodeError.shift distance) distance (readArray limits readItem) := by
  refine .bind (readArray_steps limits readItem) (fun _ => rfl)
    (readNumber_shifts distance .arrayLength) fun count cursor => ?_
  unfold readCounted
  split
  · rfl
  · split
    · rfl
    · exact readItems_shifts distance hitem count.toNat [] cursor

end Arrays

/-- Reading a value commutes with moving the input. -/
theorem readValue_shifts (limits : Limits) (room : Nat) :
    Shifts (DecodeError.shift distance) distance (readValue limits room) := by
  intro ⟨offset, octets⟩
  -- The induction is on the levels of arrays for which there is room.
  induction room using Nat.strongRecOn generalizing offset octets with
  | ind room ih =>
      have hnext : offset + 1 + distance = offset + distance + 1 := by omega
      induction octets using readValue_cases limits room with
      | hnil => simp only [Cursor.shift, readValue_nil]; rfl
      | hunknown octet octets hnone => simp only [Cursor.shift, readValue_unknown hnone]; rfl
      | hscalar octet octets tag htag hread =>
          simp only [Cursor.shift, hread, ← hnext]
          exact Shifts.bind (readTagged_steps limits tag) (fun _ => rfl)
            (readScalar_shifts distance limits tag) (fun _ _ => rfl) ⟨offset + 1, octets⟩
      | harray octet octets inner hroom htag hread =>
          simp only [Cursor.shift, hread, ← hnext]
          exact readArray_shifts distance limits
            (fun cursor => ih inner (by omega) cursor.offset cursor.rest) ⟨offset + 1, octets⟩

/-! ## Consequences -/

variable {limits : Limits} {room offset : Nat} {octets used : Bytes} {value : Value}

/-- Reading at an offset is reading a copy from its start, and moving the
outcome. -/
theorem readValue_moved (limits : Limits) (room offset : Nat) (octets : Bytes) :
    readValue limits room ⟨offset, octets⟩ =
      shiftOutcome (DecodeError.shift offset) offset (readValue limits room ⟨0, octets⟩) := by
  have hmoved := readValue_shifts offset limits room ⟨0, octets⟩
  rwa [Cursor.shift, Nat.zero_add] at hmoved

/-- Octets that hold a value hold it at every offset. -/
theorem Reads.move (hreads : Reads (readValue limits room) 0 used value) (offset : Nat) :
    Reads (readValue limits room) offset used value := by
  intro tail
  rw [readValue_moved, hreads tail, shiftOutcome, Cursor.shift, Nat.zero_add, Nat.add_comm]

end DurableStore
