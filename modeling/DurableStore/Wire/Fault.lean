import DurableStore.Text.Quoted

/-!
# Why octets do not decode

A decoder that cannot return a value says why: the cause, and the path of array
indices that leads to the item it arose in.  Some causes only say that the
input ends too early; those carry the least input length at which a further
attempt could have another outcome.  All others are final.
-/

namespace DurableStore

/-- The places of the wire format that hold a numeral. -/
inductive NumberField
  | integer
  | bulkLength
  | arrayLength
  deriving DecidableEq, Repr

namespace NumberField

/-- The name of a numeral's place in messages. -/
def label : NumberField → String
  | .integer => "integer"
  | .bulkLength => "bulk string length"
  | .arrayLength => "array length"

end NumberField

/-- The cause of a failed decoding.  Offsets count from the start of the
input. -/
inductive Fault
  /-- The input ends where a value should begin. -/
  | noValue (offset : Nat)
  /-- The input ends, at length `length`, inside a line. -/
  | openLine (offset length : Nat)
  /-- The input ends before the terminator of a null. -/
  | openNull (offset : Nat)
  /-- The input ends before the terminator of a bulk string, which lies just
  before the offset `needed`. -/
  | shortBulk (length needed : Nat)
  /-- A value begins with an octet that is no type tag. -/
  | unknownTag (octet : UInt8) (offset : Nat)
  /-- A line is longer than allowed. -/
  | longLine (offset limit : Nat)
  /-- A line that should hold a numeral is longer than any numeral. -/
  | longNumber (field : NumberField) (offset limit : Nat)
  /-- A line that should hold a numeral holds something else. -/
  | badNumber (field : NumberField) (line : Bytes)
  /-- An integer does not fit 64 bits. -/
  | wideInteger (number : Int)
  /-- A length is negative or above its limit. -/
  | badLength (field : NumberField) (length : Int)
  /-- A bulk string is not followed by a line terminator. -/
  | openBulk (length : Nat)
  /-- Arrays are nested deeper than allowed. -/
  | tooDeep (limit : Nat)
  /-- A null is not followed by a line terminator. -/
  | nullBody (offset : Nat)
  deriving DecidableEq, Repr

/-- The classes of causes that callers tell apart. -/
inductive FaultKind
  | malformed
  | unknownType
  | invalidLength
  | unexpectedEnd
  | outOfBounds
  | nestingDepth
  deriving DecidableEq, Repr

namespace Fault

/-- The class of a cause. -/
def kind : Fault → FaultKind
  | .noValue _ | .openLine _ _ | .openNull _ => .unexpectedEnd
  | .shortBulk _ _ => .outOfBounds
  | .unknownTag _ _ => .unknownType
  | .longLine _ _ | .longNumber _ _ _ | .badNumber _ _ | .wideInteger _ | .badLength _ _
  | .openBulk _ => .invalidLength
  | .tooDeep _ => .nestingDepth
  | .nullBody _ => .malformed

/-- The least input length at which another attempt could have another outcome,
if the input merely ends too early. -/
def needed? : Fault → Option Nat
  | .noValue offset => some (offset + 1)
  | .openLine _ length => some (length + 1)
  | .openNull offset => some (offset + 2)
  | .shortBulk _ needed => some needed
  | _ => none

/-- The wording of a cause. -/
def message : Fault → String
  | .noValue offset => s!"no value at offset {offset}"
  | .openLine offset _ => s!"unterminated line at offset {offset}"
  | .openNull offset => s!"unterminated null at offset {offset}"
  | .shortBulk length _ => s!"bulk string of {length} bytes exceeds available input"
  | .unknownTag octet offset =>
      "unknown type prefix " ++ Text.quoteBytes [octet] ++ s!" at offset {offset}"
  | .longLine offset limit => s!"line at offset {offset} exceeds {limit} bytes"
  | .longNumber field offset limit =>
      "invalid " ++ field.label ++ s!": line at offset {offset} exceeds {limit} bytes"
  | .badNumber field line => "invalid " ++ field.label ++ ": " ++ Text.quoteBytes line
  | .wideInteger number => s!"integer out of 64-bit range: {number}"
  | .badLength field length => "invalid " ++ field.label ++ s!": {length}"
  | .openBulk length => s!"bulk string of {length} bytes is not terminated by CRLF"
  | .tooDeep limit => s!"arrays nested deeper than {limit}"
  | .nullBody offset => s!"null value has a body at offset {offset}"

end Fault

/-- A failed decoding: its cause, and the indices of the array items that lead
to it, outermost first. -/
structure DecodeError where
  path : List Nat
  fault : Fault
  deriving DecidableEq, Repr

namespace DecodeError

/-- A failure outside any array. -/
def here (fault : Fault) : DecodeError := ⟨[], fault⟩

/-- The failure of an array whose item `index` failed. -/
def within (index : Nat) (error : DecodeError) : DecodeError :=
  { error with path := index :: error.path }

/-- The class of a failure is that of its cause. -/
def kind (error : DecodeError) : FaultKind := error.fault.kind

/-- The least input length at which another attempt could have another outcome,
if the input merely ends too early. -/
def needed? (error : DecodeError) : Option Nat := error.fault.needed?

/-- Whether the input merely ends too early. -/
def isShort (error : DecodeError) : Bool := error.needed?.isSome

/-- The position of a failure in words. -/
def pathText : List Nat → String
  | [] => ""
  | index :: rest => s!"array item {index}: " ++ pathText rest

/-- The wording of a failure: its position and its cause.  Nesting that is too
deep is reported without a position. -/
def message (error : DecodeError) : String :=
  match error.fault with
  | .tooDeep _ => error.fault.message
  | _ => pathText error.path ++ error.fault.message

end DecodeError

end DurableStore
