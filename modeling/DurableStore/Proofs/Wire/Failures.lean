import DurableStore.Proofs.Wire.Grammar

/-!
# Where decoding fails

A buffer that does not decode fails at one place: at the value itself, or at an
item of an array, which may be an item of another array.  The items before it on
every level decode, and the item itself fails at its tag, its length or item
count, its body, or because arrays may not be nested that deep.  This module
describes places by paths of item indices, without running the decoder of the
whole, and shows that a failure is that of the item at its place: of the same
class, asking for the same input, and with the path in front of its wording.

Main results:

- Definitions `Leads` and `FailsAlone`: the place of an item, and a failure that
  is none of its own items.
- Theorem `readValue_eq_error`: reading fails exactly where a path leads to an
  item that fails alone, and with this path.
- Theorem `Leads.unique`: a path leads to one place.
- Theorem `decode_failure`: a failure of decoding in terms of the item that fails.
-/

namespace DurableStore

/-! ## Places -/

/-- So many values stand one behind the other from one position to another. -/
inductive Decodes (limits : Limits) (room : Nat) : Nat → Cursor → Cursor → Prop
  /-- There are none. -/
  | none {cursor : Cursor} : Decodes limits room 0 cursor cursor
  /-- A value and those behind it. -/
  | one {count : Nat} {start next stop : Cursor} {value : Value}
      (hvalue : readValue limits room start = .ok (value, next))
      (hmore : Decodes limits room count next stop) :
      Decodes limits room (count + 1) start stop

/-- Following a path of item indices from a value, which has room for so many
levels of arrays, leads to a position and the room that is left there: every
array on the way announces more items than the index, and the items before that
index decode. -/
inductive Leads (limits : Limits) : Nat → Cursor → List Nat → Nat → Cursor → Prop
  /-- The value itself. -/
  | here {room : Nat} {cursor : Cursor} : Leads limits room cursor [] room cursor
  /-- Into the item `index` of an array, which begins at `start`. -/
  | item {room offset count index inner : Nat} {octets : Bytes} {first start target : Cursor}
      {path : List Nat}
      (hcount : readNumber .arrayLength ⟨offset + 1, octets⟩ = .ok ((count : Int), first))
      (hlimit : count ≤ limits.array) (hindex : index < count)
      (hbefore : Decodes limits room index first start)
      (hpath : Leads limits room start path inner target) :
      Leads limits (room + 1) ⟨offset, 0x2A :: octets⟩ (index :: path) inner target

/-- A value fails for a reason that lies in none of its items. -/
inductive FailsAlone (limits : Limits) : Nat → Cursor → Fault → Prop
  /-- The input ends where the value should begin. -/
  | missing {room offset : Nat} : FailsAlone limits room ⟨offset, []⟩ (.noValue offset)
  /-- It begins with an octet that is no type tag. -/
  | tag {room offset : Nat} {octet : UInt8} {octets : Bytes}
      (hnone : Tag.ofOctet? octet = none) :
      FailsAlone limits room ⟨offset, octet :: octets⟩ (.unknownTag octet offset)
  /-- It is an array for which there is no room. -/
  | depth {offset : Nat} {octets : Bytes} :
      FailsAlone limits 0 ⟨offset, 0x2A :: octets⟩ (.tooDeep limits.depth)
  /-- It is an array whose item count is not read. -/
  | header {room offset : Nat} {octets : Bytes} {fault : Fault}
      (hcount : readNumber .arrayLength ⟨offset + 1, octets⟩ = .error fault) :
      FailsAlone limits (room + 1) ⟨offset, 0x2A :: octets⟩ fault
  /-- It is an array with an item count that is not allowed. -/
  | count {room offset : Nat} {octets : Bytes} {count : Int} {next : Cursor}
      (hcount : readNumber .arrayLength ⟨offset + 1, octets⟩ = .ok (count, next))
      (hpresent : count ≠ -1) (hbad : count < 0 ∨ (limits.array : Int) < count) :
      FailsAlone limits (room + 1) ⟨offset, 0x2A :: octets⟩ (.badLength .arrayLength count)
  /-- It is no array, and what follows its tag is not read. -/
  | body {room offset : Nat} {octet : UInt8} {octets : Bytes} {tag : Tag} {fault : Fault}
      (htag : Tag.ofOctet? octet = some tag) (hscalar : tag ≠ .array)
      (hbody : readScalar limits tag ⟨offset + 1, octets⟩ = .error fault) :
      FailsAlone limits room ⟨offset, octet :: octets⟩ fault

/-- The path leads from the value at an offset of a buffer to an item that fails
alone. -/
def FailsAt (limits : Limits) (data : Bytes) (offset : Nat) (path : List Nat) (room : Nat)
    (item : Cursor) : Prop :=
  Leads limits limits.depth ⟨offset, data.drop offset⟩ path room item ∧
    ∃ fault, FailsAlone limits room item fault

variable {limits : Limits} {room inner count index : Nat} {cursor start target : Cursor}
variable {path : List Nat} {fault : Fault} {error : DecodeError}

/-! ## A place that fails fails the whole -/

/-- A value that fails alone is not read. -/
theorem FailsAlone.readValue (hfails : FailsAlone limits room cursor fault) :
    readValue limits room cursor = .error (.here fault) := by
  cases hfails with
  | missing => exact readValue_nil limits room _
  | tag hnone => exact readValue_unknown hnone limits room _ _
  | depth =>
      have htag : Tag.ofOctet? 0x2A = some .array := rfl
      exact readValue_scalar htag (fun _ => rfl) limits _ _
  | header hcount =>
      rw [readValue_array rfl]
      exact (readArray_steps limits _).error hcount
  | count hcount hpresent hbad =>
      rw [readValue_array rfl, (readArray_steps limits _).ok hcount, readCounted,
        if_neg hpresent, if_pos hbad]
  | body htag hscalar hbody =>
      rw [readValue_scalar htag (fun harray => absurd harray hscalar)]
      exact (readTagged_steps limits _).error hbody

/-- Items fail as one of them does, if those before it decode. -/
theorem Decodes.readItems_error (hbefore : Decodes limits room index cursor start)
    (hindex : index < count) (herror : readValue limits room start = .error error)
    (done : List Value) :
    readItems (readValue limits room) count done cursor =
      .error (error.within (done.length + index)) := by
  induction hbefore generalizing count done with
  | none =>
      obtain ⟨more, rfl⟩ := Nat.exists_eq_add_of_lt hindex
      rw [Nat.zero_add]
      exact (readItems_steps _ more done).error herror
  | @one index cursor next stop value hvalue _ ih =>
      obtain ⟨more, rfl⟩ : ∃ more, count = more + 1 := ⟨count - 1, by omega⟩
      have hplace : done.length + (index + 1) = (value :: done).length + index := by
        rw [List.length_cons]
        omega
      rw [(readItems_steps _ more done).ok hvalue, hplace]
      exact ih (by omega) herror (value :: done)

/-- A value fails as the item does to which a path leads, with this path in
front. -/
theorem Leads.readValue_error (hleads : Leads limits room cursor path inner target)
    (herror : readValue limits inner target = .error error) :
    readValue limits room cursor = .error ⟨path ++ error.path, error.fault⟩ := by
  induction hleads with
  | here => exact herror
  | item hcount hlimit hindex hbefore _ ih =>
      have hitems := hbefore.readItems_error hindex (ih herror) []
      rw [List.length_nil, Nat.zero_add] at hitems
      rw [readValue_array rfl, (readArray_steps limits _).ok hcount,
        readCounted_natCast _ hlimit, hitems]
      rfl

/-! ## What fails fails at a place -/

/-- Items that fail do so at one of them, behind others that decode. -/
theorem exists_decodes (done : List Value)
    (herror : readItems (readValue limits room) count done cursor = .error error) :
    ∃ index start cause, index < count ∧ Decodes limits room index cursor start ∧
      readValue limits room start = .error cause ∧
      error = cause.within (done.length + index) := by
  induction count generalizing done cursor with
  | zero => cases herror
  | succ count ih =>
      cases hitem : readValue limits room cursor with
      | error cause =>
          rw [(readItems_steps _ count done).error hitem] at herror
          cases herror
          exact ⟨0, cursor, cause, Nat.succ_pos count, .none, hitem, rfl⟩
      | ok outcome =>
          rcases outcome with ⟨value, next⟩
          rw [(readItems_steps _ count done).ok hitem] at herror
          obtain ⟨index, start, cause, hindex, hbefore, hcause, rfl⟩ := ih (value :: done) herror
          refine ⟨index + 1, start, cause, by omega, .one hitem hbefore, hcause, ?_⟩
          rw [List.length_cons, Nat.add_assoc, Nat.add_comm 1 index]

/-- An array that fails does so alone, or at one of its items, behind others that
decode. -/
theorem readArray_error {offset : Nat} {octets : Bytes}
    (herror : readArray limits (readValue limits room) ⟨offset + 1, octets⟩ = .error error) :
    (∃ fault, FailsAlone limits (room + 1) ⟨offset, 0x2A :: octets⟩ fault ∧
      error = .here fault) ∨
    ∃ count first index start cause,
      readNumber .arrayLength ⟨offset + 1, octets⟩ = .ok (((count : Nat) : Int), first) ∧
      count ≤ limits.array ∧ index < count ∧ Decodes limits room index first start ∧
      readValue limits room start = .error cause ∧ error = cause.within index := by
  cases hcount : readNumber .arrayLength ⟨offset + 1, octets⟩ with
  | error fault =>
      rw [(readArray_steps limits _).error hcount] at herror
      cases herror
      exact .inl ⟨fault, .header hcount, rfl⟩
  | ok outcome =>
      rcases outcome with ⟨count, first⟩
      rw [(readArray_steps limits _).ok hcount] at herror
      unfold readCounted at herror
      by_cases habsent : count = -1
      · rw [if_pos habsent] at herror
        cases herror
      · by_cases hbad : count < 0 ∨ (limits.array : Int) < count
        · rw [if_neg habsent, if_pos hbad] at herror
          cases herror
          exact .inl ⟨_, .count hcount habsent hbad, rfl⟩
        · rw [if_neg habsent, if_neg hbad] at herror
          obtain ⟨index, start, cause, hindex, hbefore, hcause, rfl⟩ := exists_decodes [] herror
          have hcast : ((count.toNat : Nat) : Int) = count := by omega
          refine .inr ⟨count.toNat, first, index, start, cause, by rw [hcast], by omega, hindex,
            hbefore, hcause, ?_⟩
          rw [List.length_nil, Nat.zero_add]

/-- A value that is not read fails alone at the end of the path of the failure. -/
theorem exists_leads (herror : readValue limits room cursor = .error error) :
    ∃ inner target, Leads limits room cursor error.path inner target ∧
      FailsAlone limits inner target error.fault := by
  -- The induction is on the levels of arrays for which there is room.
  induction room using Nat.strongRecOn generalizing cursor error with
  | ind room ih =>
      rcases cursor with ⟨offset, _ | ⟨octet, octets⟩⟩
      · rw [readValue_nil] at herror
        cases herror
        exact ⟨room, _, .here, .missing⟩
      cases htag : Tag.ofOctet? octet with
      | none =>
          rw [readValue_unknown htag] at herror
          cases herror
          exact ⟨room, _, .here, .tag htag⟩
      | some tag =>
          by_cases harray : tag = .array
          · subst harray
            obtain rfl : octet = 0x2A := Tag.octet_of_ofOctet htag
            cases room with
            | zero =>
                rw [readValue_scalar htag (fun _ => rfl)] at herror
                cases herror
                exact ⟨0, _, .here, .depth⟩
            | succ room =>
                rw [readValue_array htag] at herror
                rcases readArray_error herror with ⟨fault, hfails, rfl⟩ |
                  ⟨count, first, index, start, cause, hcount, hlimit, hindex, hbefore, hcause, rfl⟩
                · exact ⟨room + 1, _, .here, hfails⟩
                · obtain ⟨inner, target, hleads, hfails⟩ := ih room (Nat.lt_succ_self room) hcause
                  exact ⟨inner, target, .item hcount hlimit hindex hbefore hleads, hfails⟩
          · rw [readValue_scalar htag (fun hsame => absurd hsame harray), readTagged] at herror
            cases hbody : readScalar limits tag ⟨offset + 1, octets⟩ with
            | error fault =>
                rw [hbody] at herror
                cases herror
                exact ⟨room, _, .here, .body htag harray hbody⟩
            | ok outcome =>
                rw [hbody] at herror
                cases herror

/-- A value is not read exactly if a path leads to an item that fails alone, and
the failure is the one of this item, with this path. -/
theorem readValue_eq_error :
    readValue limits room cursor = .error error ↔
      ∃ inner target, Leads limits room cursor error.path inner target ∧
        FailsAlone limits inner target error.fault := by
  constructor
  · exact exists_leads
  · rintro ⟨inner, target, hleads, hfails⟩
    have hwhole := hleads.readValue_error hfails.readValue
    rwa [DecodeError.here, List.append_nil] at hwhole

/-! ## One place -/

/-- So many values end at one position. -/
theorem Decodes.unique {stop stop' : Cursor} (hdecodes : Decodes limits room count cursor stop)
    (hother : Decodes limits room count cursor stop') : stop = stop' := by
  induction hdecodes with
  | none =>
      cases hother
      rfl
  | one hvalue _ ih =>
      cases hother with
      | one hvalue' hmore' =>
          rw [hvalue] at hvalue'
          cases hvalue'
          exact ih hmore'

/-- A path leads to one place. -/
theorem Leads.unique {inner' : Nat} {target' : Cursor}
    (hleads : Leads limits room cursor path inner target)
    (hother : Leads limits room cursor path inner' target') :
    inner = inner' ∧ target = target' := by
  induction hleads with
  | here =>
      cases hother
      exact ⟨rfl, rfl⟩
  | item hcount _ _ hbefore _ ih =>
      cases hother with
      | item hcount' _ _ hbefore' hpath' =>
          rw [hcount] at hcount'
          cases hcount'
          cases hbefore.unique hbefore'
          exact ih hpath'

/-- Every level of arrays on the way takes some of the room. -/
theorem Leads.room_eq (hleads : Leads limits room cursor path inner target) :
    inner + path.length = room := by
  induction hleads with
  | here => rfl
  | item _ _ _ _ _ ih =>
      rw [List.length_cons]
      omega

/-! ## Positions in a buffer -/

/-- The octets that remain at a position are those of the buffer from its offset
on. -/
def Cursor.On (data : Bytes) (cursor : Cursor) : Prop :=
  cursor.rest = data.drop cursor.offset

/-- A judged reader stops at a position in the buffer. -/
theorem Judged.on {ε α : Type} {needed? : ε → Option Nat} {read : Reader ε α} {data octets : Bytes}
    {offset : Nat} {value : α} {next : Cursor} (hjudged : Judged needed? read offset octets)
    (hon : Cursor.On data ⟨offset, octets⟩) (hread : read ⟨offset, octets⟩ = .ok (value, next)) :
    next.On data := by
  obtain ⟨used, hsplit, hoffset, -⟩ := hjudged.of_ok hread
  change octets = data.drop offset at hon
  rw [Cursor.On, hoffset, ← List.drop_drop, ← hon, hsplit, List.drop_left]

/-- Values one behind the other end at a position in the buffer. -/
theorem Decodes.on {data : Bytes} {stop : Cursor} (hdecodes : Decodes limits room count cursor stop)
    (hon : cursor.On data) : stop.On data := by
  induction hdecodes with
  | none => exact hon
  | one hvalue _ ih => exact ih ((readValue_judged limits room _ _).on hon hvalue)

/-- A path leads to a position in the buffer. -/
theorem Leads.on {data : Bytes} (hleads : Leads limits room cursor path inner target)
    (hon : cursor.On data) : target.On data := by
  induction hleads with
  | here => exact hon
  | @item _ offset _ _ _ octets _ _ _ _ hcount _ _ hbefore _ ih =>
      have hnext : Cursor.On data ⟨offset + 1, octets⟩ := by
        change 0x2A :: octets = data.drop offset at hon
        rw [Cursor.On, ← List.drop_drop, ← hon, List.drop_one, List.tail_cons]
      exact ih (hbefore.on ((readNumber_judged .arrayLength _ _).on hnext hcount))

/-! ## Failures of decoding -/

/-- The position of a failure in words names the indices from the outside in. -/
theorem DecodeError.pathText_eq_join (path : List Nat) :
    DecodeError.pathText path = String.join (path.map fun index => s!"array item {index}: ") := by
  induction path with
  | nil => rfl
  | cons index path ih => rw [DecodeError.pathText, ih, List.map_cons, String.join_cons]

/-- The wording of a failure outside any array is that of its cause. -/
theorem DecodeError.message_here (fault : Fault) :
    (DecodeError.here fault).message = fault.message := by
  cases fault <;> simp [DecodeError.here, DecodeError.message, DecodeError.pathText]

/-- A failure inside arrays is worded as its cause, behind its position, which only
nesting that is too deep does not state. -/
theorem DecodeError.message_eq (error : DecodeError) :
    error.message =
      if error.kind = .nestingDepth then error.fault.message
      else String.join (error.path.map fun index => s!"array item {index}: ") ++
        error.fault.message := by
  rcases error with ⟨path, fault⟩
  rw [← DecodeError.pathText_eq_join]
  cases fault <;> rfl

/-- Decoding fails with the error because of the item at the end of the path, which
on its own fails with the cause. -/
structure FailsThrough (limits : Limits) (data : Bytes) (offset : Nat) (error : DecodeError)
    (path : List Nat) (room : Nat) (item : Cursor) (cause : DecodeError) : Prop where
  /-- The items before it on every level decode, and it fails by itself. -/
  fails : FailsAt limits data offset path room item
  /-- No other path leads to such an item, and this one to no other item. -/
  only : ∀ path' room' item', FailsAt limits data offset path' room' item' →
    path' = path ∧ room' = room ∧ item' = item
  /-- It stands in the buffer. -/
  position : item.rest = data.drop item.offset
  /-- It is nested as deep as the path is long. -/
  nesting : room + path.length = limits.depth
  /-- The cause is its failure when it is read on its own. -/
  alone : readValue limits room item = .error cause
  /-- The failure is of the same class. -/
  kind : error.kind = cause.kind
  /-- It asks for the same input. -/
  needed : error.needed? = cause.needed?
  /-- The indices of the path stand in front of its wording, from the outside in,
  unless the nesting is too deep. -/
  message : error.message =
    if error.kind = .nestingDepth then cause.message
    else String.join (path.map fun index => s!"array item {index}: ") ++ cause.message

/-- Decoding that fails does so because of exactly one item, which fails by itself,
behind others that decode on every level; the failure is the one of this item at
its offset and depth, with its position in words. -/
theorem decode_failure {data : Bytes} {offset : Nat}
    (hdecode : decode limits data offset = .error error) :
    ∃ path room item cause, FailsThrough limits data offset error path room item cause := by
  have hread := decode_eq_error.mp hdecode
  obtain ⟨room, item, hleads, hfails⟩ := readValue_eq_error.mp hread
  refine ⟨error.path, room, item, .here error.fault, ⟨hleads, error.fault, hfails⟩, ?_,
    hleads.on rfl, hleads.room_eq, hfails.readValue, rfl, rfl, ?_⟩
  · rintro path' room' item' ⟨hleads', fault', hfails'⟩
    -- The other path is the one of the failure as well.
    have hother : readValue limits limits.depth ⟨offset, data.drop offset⟩ =
        .error ⟨path', fault'⟩ := readValue_eq_error.mpr ⟨room', item', hleads', hfails'⟩
    rw [hread] at hother
    cases hother
    obtain ⟨hroom, hitem⟩ := hleads'.unique hleads
    exact ⟨rfl, hroom, hitem⟩
  · rw [DecodeError.message_here]
    exact error.message_eq

/-- The input ends, for instance, inside the second item of an array that is itself
the second item of an array. -/
theorem decode_failure_nested :
    let data := Bytes.ofString "*2\r\n:1\r\n*2\r\n+a\r\n$5\r\nab"
    let error : DecodeError := ⟨[1, 1], .shortBulk 5 27⟩
    decode ⟨8, 4, 8, 2⟩ data 0 = .error error ∧
      error.message =
        "array item 1: array item 1: bulk string of 5 bytes exceeds available input" ∧
      ∃ path room item cause,
        FailsThrough ⟨8, 4, 8, 2⟩ data 0 error path room item cause := by
  intro data error
  have hdecode : decode ⟨8, 4, 8, 2⟩ data 0 = .error error := by decide +kernel
  exact ⟨hdecode, by decide, decode_failure hdecode⟩

end DurableStore
