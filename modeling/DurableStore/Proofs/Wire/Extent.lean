import DurableStore.Proofs.Wire.Waiting

/-!
# How much a stream holds

The limits bound the octets of a value: a text or payload by its own limit, and an
array by the number of its items and what each of them may take.  Octets that are
too few for a value are fewer than that, since a reader refuses a line or a length
that is too long as soon as it has seen so much.  So a stream never holds more
than the octets of one value and those of one read, whatever its peer sends.

Main results:

- Definition `Limits.extent`: the most octets of a value with so many levels of
  arrays.
- Definition `Confined`: a reader takes no more octets than that, and asks for more
  input only if it has seen fewer.
- Theorem `readValue_confined`: the value reader is confined to the extent.
- Structure `Stream.Filled`: all but the last read of what a stream holds was too
  little for a value, which whatever happens to the stream leaves so.
- Theorem `Stream.run_extent`: what a stream holds at all times of a call.
-/

namespace DurableStore

/-! ## The extent of values -/

namespace Limits

/-- The most octets of a value that is no array: a text with its tag and terminator,
or a payload with its tag, a numeral and two terminators. -/
def flat (limits : Limits) : Nat :=
  max (limits.line + 3) (limits.bulk + 25)

/-- The most octets of a value with so many levels of arrays, each of which has a tag,
a numeral, a terminator, and its items. -/
def extent (limits : Limits) : Nat → Nat
  | 0 => limits.flat
  | depth + 1 => max limits.flat (23 + limits.array * limits.extent depth)

/-- A value may be no array. -/
theorem flat_le_extent (limits : Limits) (depth : Nat) : limits.flat ≤ limits.extent depth := by
  cases depth with
  | zero => exact Nat.le_refl _
  | succ depth => exact Nat.le_max_left _ _

end Limits

/-! ## Confined readers -/

section Confined

variable {ε ε' α β : Type} {needed? : ε → Option Nat} {needed'? : ε' → Option Nat}

/-- The outcome of reading some octets takes at most `size` of them for a value, and
asks for more only if there are fewer. -/
def Within (needed? : ε → Option Nat) (size : Nat) (octets : Bytes) :
    Except ε (α × Cursor) → Prop
  | .ok (_, next) => octets.length ≤ size + next.rest.length
  | .error error => (needed? error).isSome → octets.length < size

/-- A reader takes at most `size` octets for a value, and asks for more input only if
it has seen fewer. -/
def Confined (needed? : ε → Option Nat) (size : Nat) (read : Reader ε α) : Prop :=
  ∀ cursor, Within needed? size cursor.rest (read cursor)

/-- What is confined to a size is confined to a larger one. -/
theorem Within.mono {size larger : Nat} {octets : Bytes} {outcome : Except ε (α × Cursor)}
    (hwithin : Within needed? size octets outcome) (hlarger : size ≤ larger) :
    Within needed? larger octets outcome := by
  cases outcome with
  | ok outcome => exact Nat.le_trans hwithin (Nat.add_le_add_right hlarger _)
  | error error => exact fun hneeded => Nat.lt_of_lt_of_le (hwithin hneeded) hlarger

/-- A reader that is confined to a size is confined to a larger one. -/
theorem Confined.mono {read : Reader ε α} {size larger : Nat}
    (hread : Confined needed? size read) (hlarger : size ≤ larger) :
    Confined needed? larger read :=
  fun cursor => (hread cursor).mono hlarger

/-- A reader of two steps is confined to what both its steps are confined to. -/
theorem Confined.bind {first : Reader ε α} {second : α → Reader ε' β} {whole : Reader ε' β}
    {reword : ε → ε'} (hsteps : Steps first second reword whole) {size size' : Nat}
    (hneeded : ∀ error, needed'? (reword error) = needed? error)
    (hfirst : Confined needed? size first)
    (hsecond : ∀ found, Confined needed'? size' (second found)) :
    Confined needed'? (size + size') whole := by
  intro cursor
  have htaken := hfirst cursor
  cases hread : first cursor with
  | error fault =>
      rw [hread] at htaken
      rw [hsteps.error hread]
      intro hmore
      rw [hneeded] at hmore
      exact Nat.lt_of_lt_of_le (htaken hmore) (Nat.le_add_right _ _)
  | ok outcome =>
      rcases outcome with ⟨found, middle⟩
      rw [hread] at htaken
      change cursor.rest.length ≤ size + middle.rest.length at htaken
      rw [hsteps.ok hread]
      have hrest := hsecond found middle
      cases hlast : second found middle with
      | ok outcome =>
          rw [hlast] at hrest
          change middle.rest.length ≤ size' + outcome.2.rest.length at hrest
          change cursor.rest.length ≤ size + size' + outcome.2.rest.length
          omega
      | error error =>
          rw [hlast] at hrest
          intro hmore
          have hfewer := hrest hmore
          omega

/-- A reader that takes nothing off the input is confined to no octets. -/
theorem Confined.pure {read : Reader ε α} (value : α)
    (hread : ∀ cursor, read cursor = .ok (value, cursor)) : Confined needed? 0 read := by
  intro cursor
  rw [hread cursor]
  exact Nat.le_add_left _ _

/-- A failure for good does not ask for more. -/
theorem Within.final {size : Nat} {octets : Bytes} {error : ε} (hfinal : needed? error = none) :
    Within needed? size octets (.error error : Except ε (α × Cursor)) := by
  intro hmore
  rw [hfinal] at hmore
  cases hmore

/-- A reader that always fails for good is confined to no octets. -/
theorem Confined.fail {read : Reader ε α} (error : ε) (hfinal : needed? error = none)
    (hread : ∀ cursor, read cursor = .error error) : Confined needed? 0 read := by
  intro cursor
  rw [hread cursor]
  exact .final hfinal

/-- An outcome behind one octet is one of that octet and those behind it. -/
theorem Within.cons {size : Nat} {octets : Bytes} {outcome : Except ε (α × Cursor)}
    (hwithin : Within needed? size octets outcome) (octet : UInt8) :
    Within needed? (size + 1) (octet :: octets) outcome := by
  cases outcome with
  | ok outcome =>
      change octets.length ≤ size + outcome.2.rest.length at hwithin
      change (octet :: octets).length ≤ size + 1 + outcome.2.rest.length
      rw [List.length_cons]
      omega
  | error error => exact fun hneeded => Nat.succ_lt_succ (hwithin hneeded)

end Confined

/-! ## Lines and numerals -/

/-- A search that is not decided has seen fewer octets than a line may have, with its
terminator. -/
theorem length_lt_of_unseen {room passed length : Nat} {octets : Bytes}
    (hfound : findLineEnd room passed octets = .unseen length) : octets.length < room + 2 := by
  fun_induction findLineEnd room passed octets with
  | case1 => exact Nat.succ_pos _
  | case2 => exact Nat.succ_lt_succ (Nat.succ_pos _)
  | case3 => contradiction
  | case4 => contradiction
  | case5 passed first second rest hend room ih =>
      have hrest := ih hfound
      rw [List.length_cons]
      omega

/-- A cursor that advances passes no more octets than that. -/
theorem Cursor.length_le_advance (cursor : Cursor) (count : Nat) :
    cursor.rest.length ≤ count + (cursor.advance count).rest.length := by
  rw [Cursor.advance, List.length_drop]
  omega

/-- The line reader is confined to a line and its terminator. -/
theorem readLine_confined (limit : Nat) : Confined Fault.needed? (limit + 2) (readLine limit) := by
  intro cursor
  simp only [readLine]
  cases hfound : findLineEnd limit 0 cursor.rest with
  | «at» length =>
      obtain ⟨line, tail, -, hlength, hlimit, -⟩ := findLineEnd_at hfound
      have hpassed := cursor.length_le_advance (length + 2)
      change cursor.rest.length ≤ limit + 2 + (cursor.advance (length + 2)).rest.length
      omega
  | tooFar => exact .final rfl
  | unseen length => exact fun _ => length_lt_of_unseen hfound

/-- The numeral reader is confined to twenty octets and a terminator. -/
theorem readNumber_confined (field : NumberField) :
    Confined Fault.needed? 22 (readNumber field) := by
  have hdigits : ∀ line, Confined Fault.needed? 0 (readDigits field line) := by
    intro line
    cases hnumber : Numeral.parse? line with
    | some number => exact .pure number fun cursor => by simp only [readDigits, hnumber]
    | none =>
        exact .fail (.badNumber field line) rfl fun cursor => by simp only [readDigits, hnumber]
  exact .bind (readNumber_steps field) (fun error => by cases error <;> rfl)
    (readLine_confined Numeral.maxLength) hdigits

/-! ## Values other than arrays -/

/-- The text reader is confined to a line and its terminator. -/
theorem readText_confined (limits : Limits) (make : Bytes → Value) :
    Confined Fault.needed? (limits.line + 2) (readText limits make) := by
  have hsteps : Confined Fault.needed? (limits.line + 2 + 0) (readText limits make) :=
    .bind (readText_steps limits make) (fun _ => rfl) (readLine_confined limits.line)
      fun line => .pure (make line) fun _ => rfl
  exact hsteps

/-- The integer reader is confined to a numeral and its terminator. -/
theorem readInteger_confined : Confined Fault.needed? 22 readInteger := by
  have hword : ∀ number, Confined Fault.needed? 0 (readWord number) := by
    intro number
    by_cases hfits : Numeral.fits64 number
    · exact .pure (.integer number) fun cursor => if_pos hfits
    · exact .fail (.wideInteger number) rfl fun cursor => if_neg hfits
  exact .bind readInteger_steps (fun _ => rfl) (readNumber_confined .integer) hword

/-- The payload reader is confined to the payload and its terminator. -/
theorem readPayload_confined (length : Nat) :
    Confined Fault.needed? (length + 2) (readPayload length) := by
  intro cursor
  unfold readPayload
  split
  · split
    · exact cursor.length_le_advance (length + 2)
    · exact .final rfl
  · rename_i hfew
    intro _
    match hdrop : cursor.rest.drop length with
    | first :: second :: rest => exact absurd hdrop (hfew first second rest)
    | [] | [_] =>
        have hlength := congrArg List.length hdrop
        simp only [List.length_drop, List.length_cons, List.length_nil] at hlength
        omega

/-- The bulk string reader is confined to a numeral, the longest payload, and their
terminators. -/
theorem readBulk_confined (limits : Limits) :
    Confined Fault.needed? (22 + (limits.bulk + 2)) (readBulk limits) := by
  refine .bind (readBulk_steps limits) (fun _ => rfl) (readNumber_confined .bulkLength)
    fun length => ?_
  by_cases habsent : length = -1
  · exact (Confined.pure Value.absentBulk fun cursor => if_pos habsent).mono (Nat.zero_le _)
  · by_cases hbad : length < 0 ∨ (limits.bulk : Int) < length
    · exact (Confined.fail (Fault.badLength .bulkLength length) rfl fun cursor => by
        rw [readBody, if_neg habsent, if_pos hbad]).mono (Nat.zero_le _)
    · have hlimit : length.toNat + 2 ≤ limits.bulk + 2 := by omega
      unfold readBody
      simpa only [if_neg habsent, if_neg hbad] using (readPayload_confined length.toNat).mono hlimit

/-- The null reader is confined to a terminator. -/
theorem readNull_confined : Confined Fault.needed? 2 readNull := by
  intro cursor
  unfold readNull
  split
  · split
    · exact cursor.length_le_advance 2
    · exact .final rfl
  · rename_i hfew
    intro _
    match hrest : cursor.rest with
    | first :: second :: rest => exact absurd hrest (hfew first second rest)
    | [] | [_] => simp only [List.length_cons, List.length_nil]; omega

/-- What follows a type tag, the items of an array apart, is confined to one octet less
than the extent of values that are no arrays. -/
theorem readScalar_confined (limits : Limits) (tag : Tag) {size : Nat}
    (hsize : limits.flat ≤ size + 1) : Confined Fault.needed? size (readScalar limits tag) := by
  have hline : limits.line + 3 ≤ limits.flat := Nat.le_max_left _ _
  have hbulk : limits.bulk + 25 ≤ limits.flat := Nat.le_max_right _ _
  cases tag with
  | simple => exact (readText_confined limits .simple).mono (by omega)
  | error => exact (readText_confined limits .error).mono (by omega)
  | integer => exact readInteger_confined.mono (by omega)
  | bulk => exact (readBulk_confined limits).mono (by omega)
  | null => exact readNull_confined.mono (by omega)
  | array =>
      exact (Confined.fail (Fault.tooDeep limits.depth) rfl fun _ => rfl).mono (Nat.zero_le _)

/-! ## Arrays and values in general -/

section Arrays

variable {readItem : Reader DecodeError Value} {size : Nat}

/-- The reader of items is confined to as many times what the reader of one item is
confined to. -/
theorem readItems_confined (hitem : Confined DecodeError.needed? size readItem) (count : Nat)
    (done : List Value) :
    Confined DecodeError.needed? (count * size) (readItems readItem count done) := by
  induction count generalizing done with
  | zero =>
      rw [Nat.zero_mul]
      exact .pure (.array done.reverse) fun _ => rfl
  | succ count ih =>
      rw [Nat.succ_mul, Nat.add_comm]
      exact .bind (readItems_steps readItem count done) (fun _ => rfl) hitem
        fun item => ih (item :: done)

/-- The array reader is confined to a numeral, a terminator, and as many items as an
array may have. -/
theorem readArray_confined (limits : Limits) (hitem : Confined DecodeError.needed? size readItem) :
    Confined DecodeError.needed? (22 + limits.array * size) (readArray limits readItem) := by
  refine .bind (readArray_steps limits readItem) (fun _ => rfl)
    (readNumber_confined .arrayLength) fun count => ?_
  by_cases habsent : count = -1
  · exact (Confined.pure Value.absentArray fun cursor => if_pos habsent).mono (Nat.zero_le _)
  · by_cases hbad : count < 0 ∨ (limits.array : Int) < count
    · exact (Confined.fail (DecodeError.here (.badLength .arrayLength count)) rfl fun cursor => by
        rw [readCounted, if_neg habsent, if_pos hbad]).mono (Nat.zero_le _)
    · have hlimit : count.toNat ≤ limits.array := by omega
      unfold readCounted
      simpa only [if_neg habsent, if_neg hbad] using
        (readItems_confined hitem count.toNat []).mono (Nat.mul_le_mul_right size hlimit)

end Arrays

/-- Reading octets that do not begin with the tag of arrays, or leave no room for one,
is confined to the extent of values that are no arrays. -/
theorem readValue_flat (limits : Limits) (room offset : Nat) {octets : Bytes}
    (hhead : octets.head? = some Tag.array.octet → room = 0) :
    Within DecodeError.needed? limits.flat octets (readValue limits room ⟨offset, octets⟩) := by
  have hbulk : limits.bulk + 25 ≤ limits.flat := Nat.le_max_right _ _
  induction octets using readValue_cases limits room with
  | hnil =>
      rw [readValue_nil]
      intro _
      rw [List.length_nil]
      omega
  | hunknown octet octets hnone =>
      rw [readValue_unknown hnone]
      exact .final rfl
  | hscalar octet octets tag htag hread =>
      obtain ⟨size, hsize⟩ : ∃ size, limits.flat = size + 1 := ⟨limits.flat - 1, by omega⟩
      have htagged : Confined DecodeError.needed? (size + 0) (readTagged limits tag) :=
        .bind (readTagged_steps limits tag) (fun _ => rfl)
          (readScalar_confined limits tag hsize.le) fun value => .pure value fun _ => rfl
      rw [hread, hsize]
      exact (htagged ⟨offset + 1, octets⟩).cons octet
  | harray octet octets inner hroom htag hread =>
      have hnone : room = 0 := hhead (by rw [List.head?_cons, Tag.octet_of_ofOctet htag])
      omega

/-- The value reader is confined to the extent of values with so many levels of
arrays. -/
theorem readValue_confined (limits : Limits) (room : Nat) :
    Confined DecodeError.needed? (limits.extent room) (readValue limits room) := by
  induction room with
  | zero => exact fun ⟨offset, octets⟩ => readValue_flat limits 0 offset fun _ => rfl
  | succ room ih =>
      rintro ⟨offset, octets⟩
      by_cases hhead : octets.head? = some Tag.array.octet
      · obtain ⟨rest, rfl⟩ := List.head?_eq_some_iff.mp hhead
        have harray := (readArray_confined limits ih ⟨offset + 1, rest⟩).cons Tag.array.octet
        have hitems : 23 + limits.array * limits.extent room ≤ limits.extent (room + 1) :=
          Nat.le_max_right _ _
        have htag : Tag.ofOctet? Tag.array.octet = some .array := rfl
        rw [readValue_array htag]
        exact harray.mono (by omega)
      · have hscalar := readValue_flat limits (room + 1) offset (absurd · hhead)
        exact hscalar.mono (limits.flat_le_extent (room + 1))

/-! ## The octets of one value -/

section Decode

variable {limits : Limits}

/-- A value that is decoded has no more octets than its extent. -/
theorem decode_stop_le {data : Bytes} {offset stop : Nat} {value : Value}
    (hdecode : decode limits data offset = .ok (value, stop)) :
    stop ≤ offset + limits.extent limits.depth := by
  obtain ⟨next, hread, rfl⟩ := decode_eq_ok.mp hdecode
  have hwithin := readValue_confined limits limits.depth ⟨offset, data.drop offset⟩
  rw [hread] at hwithin
  change (data.drop offset).length ≤ limits.extent limits.depth + next.rest.length at hwithin
  obtain ⟨used, hsplit, hoffset, -⟩ := readValue_reads hread
  rw [hsplit, List.length_append] at hwithin
  omega

/-- Octets that end inside a value are fewer than the extent of one. -/
theorem length_lt_of_endsEarly {data : Bytes} {offset : Nat} {error : DecodeError}
    (hdecode : decode limits data offset = .error error) (hearly : error.EndsEarly) :
    data.length < offset + limits.extent limits.depth := by
  have hwithin := readValue_confined limits limits.depth ⟨offset, data.drop offset⟩
  rw [decode_eq_error.mp hdecode] at hwithin
  have hfewer := hwithin (DecodeError.isShort_iff.mpr hearly)
  rw [List.length_drop] at hfewer
  omega

/-- Octets that are too few for a value are fewer than the extent of one. -/
theorem TooShort.length_lt {octets : Bytes} (hshort : TooShort limits octets) :
    octets.length < limits.extent limits.depth := by
  obtain ⟨error, hdecode, hearly⟩ := hshort
  have hfewer := length_lt_of_endsEarly hdecode hearly
  rwa [Nat.zero_add] at hfewer

/-- Octets that are too few for a value, and are not those of an array, are fewer than
the extent of values that are no arrays. -/
theorem TooShort.length_lt_flat {octets : Bytes} (hshort : TooShort limits octets)
    (hhead : octets.head? ≠ some Tag.array.octet) : octets.length < limits.flat := by
  obtain ⟨error, hdecode, hearly⟩ := hshort
  have hwithin := readValue_flat limits limits.depth 0 (absurd · hhead)
  have hread := decode_eq_error.mp hdecode
  rw [List.drop_zero] at hread
  rw [hread] at hwithin
  exact hwithin (DecodeError.isShort_iff.mpr hearly)

/-- No octets are too few. -/
theorem tooShort_nil (limits : Limits) : TooShort limits [] :=
  ⟨.here (.noValue 0), decode_eq_error.mpr (readValue_nil limits limits.depth 0),
    DecodeError.isShort_iff.mp rfl⟩

/-- A value ends behind octets that were too few for it. -/
theorem TooShort.length_le_stop {before piece : Bytes} {value : Value} {stop : Nat}
    (hshort : TooShort limits before)
    (hdecode : decode limits (before ++ piece) 0 = .ok (value, stop)) : before.length ≤ stop := by
  apply Nat.le_of_not_lt
  intro hinside
  obtain ⟨-, hown⟩ := decode_take_stop hdecode
  rw [List.take_append_of_le_length hinside.le] at hown
  have hdecided : ¬ TooShort limits (before.take stop) := by
    rintro ⟨error, herror, -⟩
    rw [hown] at herror
    cases herror
  obtain ⟨error, herror, -⟩ := hshort
  rw [← decode_take hdecided, hown] at herror
  cases herror

/-- An attempt leaves the octets, except those of a value that it yields. -/
theorem Receiver.Sound.attempt_left {receiver left : Receiver} {outcome : Attempt}
    (hsound : receiver.Sound limits) (hattempt : receiver.attempt limits = (outcome, left)) :
    left.buffer = receiver.buffer ∨
      ∃ value stop, decode limits receiver.buffer 0 = .ok (value, stop) ∧
        left.buffer = receiver.buffer.drop stop := by
  obtain ⟨_, _, hsame, hjudge, -⟩ := hsound.attempt
  cases hattempt.symm.trans hsame
  cases hdecode : decode limits receiver.buffer 0 with
  | ok found =>
      obtain ⟨_, hvalue, hbuffer⟩ := hsound.attempt_value hdecode
      cases hattempt.symm.trans hvalue
      exact .inr ⟨found.1, found.2, rfl, hbuffer⟩
  | error error =>
      have hread : readValue limits limits.depth ⟨0, receiver.buffer⟩ = .error error :=
        decode_eq_error.mp hdecode
      simp only [judge, hread, Prod.mk.injEq] at hjudge
      exact .inl hjudge.2.symm

end Decode

/-! ## What a stream holds -/

/-- Octets are fewer than those of one value and of one read. -/
structure Held (limits : Limits) (readSize : Nat) (octets : Bytes) : Prop where
  all : octets.length < limits.extent limits.depth + readSize
  flat : octets.head? ≠ some Tag.array.octet → octets.length < limits.flat + readSize

/-- Octets that are too few for a value, and those of one read behind them. -/
theorem TooShort.held {limits : Limits} {readSize : Nat} {before piece : Bytes}
    (hshort : TooShort limits before) (hpiece : piece.length ≤ readSize) :
    Held limits readSize (before ++ piece) := by
  refine ⟨?_, fun hhead => ?_⟩
  · have hbefore := hshort.length_lt
    rw [List.length_append]
    omega
  · have hbefore : before.length < limits.flat := by
      cases before with
      | nil =>
          have hbulk : limits.bulk + 25 ≤ limits.flat := Nat.le_max_right _ _
          rw [List.length_nil]
          omega
      | cons octet octets => exact hshort.length_lt_flat hhead
    rw [List.length_append]
    omega

namespace Stream

variable {limits : Limits} {readSize : Nat} {stream pause : Stream} {left : Receiver}

/-- What has been read and is not yet part of a value was too little for one before
the last read. -/
structure Filled (limits : Limits) (readSize : Nat) (stream : Stream) : Prop where
  sound : stream.Sound limits
  buffer : ∃ before piece, stream.receiver.buffer = before ++ piece ∧ TooShort limits before ∧
    piece.length ≤ readSize

namespace Filled

/-- A stream on which nothing has arrived holds nothing. -/
theorem empty : Filled limits readSize Stream.empty where
  sound := Receiver.sound_empty
  buffer := ⟨[], [], rfl, tooShort_nil limits, Nat.zero_le _⟩

/-- An attempt takes off the octets of a value, which ends in the last read. -/
theorem attempt {outcome : Attempt} (hfilled : stream.Filled limits readSize)
    (hattempt : stream.receiver.attempt limits = (outcome, left)) :
    (stream.withReceiver left).Filled limits readSize := by
  obtain ⟨before, piece, hbuffer, hshort, hpiece⟩ := hfilled.buffer
  have hsound := Receiver.Sound.of_attempt hfilled.sound hattempt
  obtain hsame | ⟨value, stop, hdecode, hrest⟩ :=
    Receiver.Sound.attempt_left hfilled.sound hattempt
  · exact ⟨hsound, before, piece, hsame.trans hbuffer, hshort, hpiece⟩
  · rw [hbuffer] at hdecode hrest
    have hstop := hshort.length_le_stop hdecode
    rw [List.drop_append, List.drop_eq_nil_of_le hstop, List.nil_append] at hrest
    refine ⟨hsound, [], _, hrest, tooShort_nil limits, ?_⟩
    rw [List.length_drop]
    omega

/-- A read follows octets that are too few. -/
theorem pull (hfilled : stream.Filled limits readSize)
    (hattempt : stream.receiver.attempt limits = (.short, left)) :
    ((stream.withReceiver left).pull readSize).Filled limits readSize := by
  have hpauses : stream.Pauses limits readSize (stream.withReceiver left) := .now hattempt
  obtain ⟨-, -, hsound, -⟩ := hpauses.spec hfilled.sound
  have hshort := hpauses.tooShort hfilled.sound
  refine ⟨Receiver.Sound.push hsound _, _, _, rfl, hshort, ?_⟩
  exact List.length_take_le _ _

/-- A call reads on only behind octets that are too few. -/
theorem ask (hfilled : stream.Filled limits readSize) (hsize : 0 < readSize) (call : Call) :
    (stream.ask limits readSize call).2.Filled limits readSize := by
  rw [ask_eq_read limits hsize]
  induction stream using read_induction limits hsize with
  | hvalue stream value stop left hattempt =>
      rw [read_value hsize hattempt]
      exact hfilled.attempt hattempt
  | hmalformed stream error left hattempt =>
      rw [read_malformed hsize hattempt]
      exact hfilled.attempt hattempt
  | hstarved stream left hattempt hqueued =>
      rw [read_starved hattempt hqueued]
      exact hfilled.attempt hattempt
  | hpull stream left hattempt hqueued ih =>
      rw [read_pull hsize hattempt hqueued]
      exact ih (hfilled.pull hattempt)

/-- What happens to a stream does not change that. -/
theorem run (hfilled : stream.Filled limits readSize) (hsize : 0 < readSize)
    (events : List Event) : (stream.run limits readSize events).2.Filled limits readSize := by
  induction events generalizing stream with
  | nil => exact hfilled
  | cons event events ih =>
      rw [run_cons]
      cases event with
      | arrive piece => exact ih ⟨hfilled.sound, hfilled.buffer⟩
      | call call => exact ih (hfilled.ask hsize call)

end Filled

/-- At all times of a call the stream holds fewer octets than those of one value and of
one read: before the call, behind each read of it, and when it has returned. -/
structure Contained (limits : Limits) (readSize : Nat) (stream : Stream) (call : Call) :
    Prop where
  before : Held limits readSize stream.receiver.buffer
  reading : ∀ pause, stream.Pauses limits readSize pause →
    ∀ piece, piece.length ≤ readSize → Held limits readSize (pause.receiver.buffer ++ piece)
  behind : Held limits readSize (stream.ask limits readSize call).2.receiver.buffer

/-- What has been read is fewer octets than those of one value and of one read. -/
theorem Filled.held (hfilled : stream.Filled limits readSize) :
    Held limits readSize stream.receiver.buffer := by
  obtain ⟨before, piece, hbuffer, hshort, hpiece⟩ := hfilled.buffer
  rw [hbuffer]
  exact hshort.held hpiece

/-- So it is at all times of a call. -/
theorem Filled.contained (hfilled : stream.Filled limits readSize) (hsize : 0 < readSize)
    (call : Call) : Contained limits readSize stream call where
  before := hfilled.held
  reading _ hpauses _ hpiece := (hpauses.tooShort hfilled.sound).held hpiece
  behind := (hfilled.ask hsize call).held

/-- No value has more octets than its extent, octets that are too few for a value are
fewer than that, and so a stream never holds more than this and one read, in whatever
pieces octets have arrived and however it has been asked before and after it was
closed. -/
theorem run_extent (limits : Limits) {readSize : Nat} (hsize : 0 < readSize) (events : List Event)
    (calls : List Call) (call : Call) :
    let opened := empty.run limits readSize events
    let closed := opened.2.close.run limits readSize (calls.map .call)
    (∀ data offset value stop, decode limits data offset = .ok (value, stop) →
      stop ≤ offset + limits.extent limits.depth) ∧
    (∀ data offset error, decode limits data offset = .error error → error.EndsEarly →
      data.length < offset + limits.extent limits.depth) ∧
    Contained limits readSize opened.2 call ∧ Contained limits readSize closed.2 call := by
  intro opened closed
  have hempty : empty.Filled limits readSize := .empty
  have hopened : opened.2.Filled limits readSize := hempty.run hsize events
  have hclosing : opened.2.close.Filled limits readSize := ⟨hopened.sound, hopened.buffer⟩
  have hclosed : closed.2.Filled limits readSize := hclosing.run hsize (calls.map .call)
  exact ⟨fun _ _ _ _ => decode_stop_le, fun _ _ _ => length_lt_of_endsEarly,
    hopened.contained hsize call, hclosed.contained hsize call⟩

/-- With payloads of five octets and arrays of two items, for instance, a stream that
reads three octets at a time holds fewer than 86 of them, and fewer than 33 if they do
not begin an array. -/
theorem run_extent_small :
    let limits : Limits := ⟨5, 2, 4, 1⟩
    let events : List Event := [.call .start, .arrive (Bytes.ofString "$5\r\nhel"), .call .resume]
    let opened := empty.run limits 3 events
    let closed := opened.2.close.run limits 3 ([].map .call)
    0 < 3 ∧ limits.flat + 3 = 33 ∧ limits.extent limits.depth + 3 = 86 ∧
      opened.2.receiver.buffer = Bytes.ofString "$5\r\nhel" ∧
      Contained limits 3 opened.2 .resume ∧ Contained limits 3 closed.2 .resume := by
  intro limits events opened closed
  have hsize : 0 < 3 := by decide
  obtain ⟨-, -, hopened, hclosed⟩ := run_extent limits hsize events [] .resume
  exact ⟨hsize, by decide, by decide, by decide, hopened, hclosed⟩

end Stream

end DurableStore
