import DurableStore.Number.Signed
import DurableStore.Wire.Fault
import DurableStore.Wire.Limits
import DurableStore.Wire.Value

/-!
# Decoding

A value begins with a type tag.  Texts and numerals run to the next line
terminator; a bulk string announces its length, an array the number of its
items.  The decoder reads one value from the front of the octets that remain
and never consumes part of one: if the input ends inside a value it says how
much input it takes to get further.

The depth of nesting that is still allowed decreases from an array to its
items, which is what makes the recursion structural.

Main definitions:

- `Cursor`: a position in the input together with the octets behind it.
- `readValue`: one value at a cursor, with room for so many levels of arrays.
- `decode`: one value at an offset of an octet string, and the offset behind it.
- `decodeAll`: all values of an octet string, one after the other.
-/

namespace DurableStore

/-! ## Type tags -/

/-- The octets that a value can begin with. -/
inductive Tag
  | simple
  | error
  | integer
  | bulk
  | array
  | null
  deriving DecidableEq, Repr

namespace Tag

/-- The octet of a type tag. -/
def octet : Tag → UInt8
  | .simple => 0x2B
  | .error => 0x2D
  | .integer => 0x3A
  | .bulk => 0x24
  | .array => 0x2A
  | .null => 0x5F

/-- The type tag that an octet is. -/
def ofOctet? (octet : UInt8) : Option Tag :=
  if octet = 0x2B then some .simple
  else if octet = 0x2D then some .error
  else if octet = 0x3A then some .integer
  else if octet = 0x24 then some .bulk
  else if octet = 0x2A then some .array
  else if octet = 0x5F then some .null
  else none

end Tag

/-! ## Lines and numerals -/

/-- A position in the input: the octets still to come, and the offset of the
first of them. -/
structure Cursor where
  offset : Nat
  rest : Bytes
  deriving DecidableEq, Repr

namespace Cursor

/-- Move past the next `count` octets. -/
def advance (cursor : Cursor) (count : Nat) : Cursor :=
  ⟨cursor.offset + count, cursor.rest.drop count⟩

end Cursor

/-- What the search for a line terminator finds. -/
inductive LineEnd
  /-- The terminator stands behind `length` octets. -/
  | at (length : Nat)
  /-- The line is longer than allowed. -/
  | tooFar
  /-- The input ends, after `length` octets, before this is decided. -/
  | unseen (length : Nat)
  deriving DecidableEq, Repr

/-- Search for the first line terminator that begins within the next `room + 1`
octets; `passed` octets of the line have been passed already. -/
def findLineEnd (room passed : Nat) : Bytes → LineEnd
  | [] => .unseen passed
  | [_] => .unseen (passed + 1)
  | first :: second :: rest =>
      if first = 0x0D ∧ second = 0x0A then .at passed
      else match room with
        | 0 => .tooFar
        | room + 1 => findLineEnd room (passed + 1) (second :: rest)

/-- Read a line of at most `limit` octets and its terminator. -/
def readLine (limit : Nat) (cursor : Cursor) : Except Fault (Bytes × Cursor) :=
  match findLineEnd limit 0 cursor.rest with
  | .at length => .ok (cursor.rest.take length, cursor.advance (length + 2))
  | .tooFar => .error (.longLine cursor.offset limit)
  | .unseen length => .error (.openLine cursor.offset (cursor.offset + length))

/-- Read a numeral and its line terminator. -/
def readNumber (field : NumberField) (cursor : Cursor) : Except Fault (Int × Cursor) :=
  match readLine Numeral.maxLength cursor with
  | .error (.longLine offset limit) => .error (.longNumber field offset limit)
  | .error fault => .error fault
  | .ok (line, next) =>
      match Numeral.parse? line with
      | some number => .ok (number, next)
      | none => .error (.badNumber field line)

/-! ## Values other than arrays -/

/-- Read the text of a status or error line. -/
def readText (limits : Limits) (make : Bytes → Value) (cursor : Cursor) :
    Except Fault (Value × Cursor) :=
  match readLine limits.line cursor with
  | .error fault => .error fault
  | .ok (line, next) => .ok (make line, next)

/-- Read the numeral of an integer. -/
def readInteger (cursor : Cursor) : Except Fault (Value × Cursor) :=
  match readNumber .integer cursor with
  | .error fault => .error fault
  | .ok (number, next) =>
      if Numeral.fits64 number then .ok (.integer number, next)
      else .error (.wideInteger number)

/-- Read the payload of a bulk string, whose length has been read, and the
line terminator behind it. -/
def readPayload (length : Nat) (cursor : Cursor) : Except Fault (Value × Cursor) :=
  match cursor.rest.drop length with
  | first :: second :: _ =>
      if first = 0x0D ∧ second = 0x0A then
        .ok (.bulk (cursor.rest.take length), cursor.advance (length + 2))
      else .error (.openBulk length)
  | _ => .error (.shortBulk length (cursor.offset + length + 2))

/-- Read the length and the payload of a bulk string. -/
def readBulk (limits : Limits) (cursor : Cursor) : Except Fault (Value × Cursor) :=
  match readNumber .bulkLength cursor with
  | .error fault => .error fault
  | .ok (length, next) =>
      if length = -1 then .ok (.absentBulk, next)
      else if length < 0 ∨ (limits.bulk : Int) < length then
        .error (.badLength .bulkLength length)
      else readPayload length.toNat next

/-- Read the terminator of a null. -/
def readNull (cursor : Cursor) : Except Fault (Value × Cursor) :=
  match cursor.rest with
  | first :: second :: _ =>
      if first = 0x0D ∧ second = 0x0A then .ok (.null, cursor.advance 2)
      else .error (.nullBody cursor.offset)
  | _ => .error (.openNull cursor.offset)

/-! ## Arrays and values in general -/

/-- Read `count` items by a given item reader.  The items before them, newest
first, are `done`. -/
def readItems (readItem : Cursor → Except DecodeError (Value × Cursor)) :
    Nat → List Value → Cursor → Except DecodeError (Value × Cursor)
  | 0, done, cursor => .ok (.array done.reverse, cursor)
  | count + 1, done, cursor =>
      match readItem cursor with
      | .error error => .error (error.within done.length)
      | .ok (item, next) => readItems readItem count (item :: done) next

/-- Read the item count and the items of an array, the items by a given
reader. -/
def readArray (limits : Limits) (readItem : Cursor → Except DecodeError (Value × Cursor))
    (cursor : Cursor) : Except DecodeError (Value × Cursor) :=
  match readNumber .arrayLength cursor with
  | .error fault => .error (.here fault)
  | .ok (count, next) =>
      if count = -1 then .ok (.absentArray, next)
      else if count < 0 ∨ (limits.array : Int) < count then
        .error (.here (.badLength .arrayLength count))
      else readItems readItem count.toNat [] next

/-- Read what follows the type tag of a value that is no array.  An array comes
here only where there is no room for one. -/
def readScalar (limits : Limits) (tag : Tag) (cursor : Cursor) :
    Except Fault (Value × Cursor) :=
  match tag with
  | .simple => readText limits .simple cursor
  | .error => readText limits .error cursor
  | .integer => readInteger cursor
  | .bulk => readBulk limits cursor
  | .null => readNull cursor
  | .array => .error (.tooDeep limits.depth)

/-- Read one value, with room for `room` levels of arrays. -/
def readValue (limits : Limits) : Nat → Cursor → Except DecodeError (Value × Cursor)
  | room, cursor =>
      match cursor.rest with
      | [] => .error (.here (.noValue cursor.offset))
      | octet :: _ =>
          match Tag.ofOctet? octet, room with
          | none, _ => .error (.here (.unknownTag octet cursor.offset))
          | some .array, room + 1 =>
              readArray limits (fun next => readValue limits room next) (cursor.advance 1)
          | some tag, _ => (readScalar limits tag (cursor.advance 1)).mapError .here

/-- Decode the value at an offset of an octet string; the result comes with the
offset behind the value. -/
def decode (limits : Limits) (data : Bytes) (offset : Nat) : Except DecodeError (Value × Nat) :=
  match readValue limits limits.depth ⟨offset, data.drop offset⟩ with
  | .error error => .error error
  | .ok (value, next) => .ok (value, next.offset)

/-! ## Sequences of values -/

/-- What an octet string holds: values, each with the offset behind it, and the
reason why what is left is no value if anything is left. -/
structure Sequence where
  values : List (Value × Nat)
  error? : Option DecodeError
  deriving DecidableEq, Repr

/-- Read at most `fuel` values; those read before, newest first, are `done`. -/
def readAllWithin (limits : Limits) : Nat → List (Value × Nat) → Cursor → Sequence
  | 0, done, _ => ⟨done.reverse, none⟩
  | fuel + 1, done, cursor =>
      if cursor.rest.isEmpty then ⟨done.reverse, none⟩
      else match readValue limits limits.depth cursor with
        | .error error => ⟨done.reverse, some error⟩
        | .ok (value, next) => readAllWithin limits fuel ((value, next.offset) :: done) next

/-- Decode the values of an octet string one after the other.  Every value has
at least one octet, so there are no more values than octets. -/
def decodeAll (limits : Limits) (data : Bytes) : Sequence :=
  readAllWithin limits data.length [] ⟨0, data⟩

end DurableStore
