import DurableStore.Wire.Decode
import DurableStore.Wire.Encode

/-!
# Values of the host application

The host application gives values to the encoder and gets them from the decoder with
texts of its own.  A text that has been decoded is what its octets are read as, and the
values of the other modules hold these octets in its place.  An application can build
more texts than that: some of them cannot be written, and others are written in octets
that are read as another text.

Main definitions:

- `HostValue.written`: the value whose texts are the octets of those of a given one.
- `HostValue.encode`: what the encoder makes of any value.
- `decodeHost`: what the decoder hands to the application.
-/

namespace DurableStore

/-- A value of the host application, or a foreign object in the place of one. -/
inductive HostValue
  | simple (text : HostText)
  | error (text : HostText)
  | integer (number : Int)
  | bulk (payload : Bytes)
  | absentBulk
  | array (items : List HostValue)
  | absentArray
  | null
  | foreign (object : Foreign)
  deriving Repr

/-- Why a value of the host application has no written form. -/
inductive HostFault
  /-- A status or error text holds a carriage return or a line feed. -/
  | lineBreak (text : HostText)
  /-- A status or error text holds surrogates that stand for no octet. -/
  | surrogates (run : SurrogateRun)
  /-- An integer does not fit 64 bits. -/
  | wideInteger (number : Int)
  /-- A foreign object stands in the place of a value. -/
  | notAValue (object : Foreign)
  deriving DecidableEq, Repr

namespace HostFault

/-- The wording of an obstacle to writing a value. -/
def message : HostFault → String
  | .lineBreak text => "line value may not contain CR or LF: " ++ Text.quoteText text
  | .surrogates run => run.message
  | .wideInteger number => s!"integer out of 64-bit range: {number}"
  | .notAValue object => "not a protocol value: " ++ object.describe

end HostFault

namespace HostValue

/-! ## Encoding -/

/-- The octets of a status or error text. -/
def lineOctets (text : HostText) : Except HostFault Bytes :=
  if text.contains (.char '\r') || text.contains (.char '\n') then .error (.lineBreak text)
  else
    match Text.write text with
    | .error run => .error (.surrogates run)
    | .ok octets => .ok octets

mutual

/-- The value whose texts are the octets of those of a given one, or the first obstacle to
writing it, in the order in which its parts are written. -/
def written : HostValue → Except HostFault Value
  | .simple text => (lineOctets text).map .simple
  | .error text => (lineOctets text).map .error
  | .integer number =>
      if Numeral.fits64 number then .ok (.integer number) else .error (.wideInteger number)
  | .bulk payload => .ok (.bulk payload)
  | .absentBulk => .ok .absentBulk
  | .array items => (writtenItems items).map .array
  | .absentArray => .ok .absentArray
  | .null => .ok .null
  | .foreign object => .error (.notAValue object)

/-- The values of the items of an array. -/
def writtenItems : List HostValue → Except HostFault (List Value)
  | [] => .ok []
  | item :: rest =>
      match written item with
      | .error obstacle => .error obstacle
      | .ok value => (writtenItems rest).map (value :: ·)

end

/-- Write a value, or say why it cannot be written. -/
def encode (given : HostValue) : Except HostFault Bytes :=
  given.written.map Value.wire

end HostValue

/-! ## Decoding -/

namespace Value

mutual

/-- A value as the host application gets it: its texts are what their octets are read
as. -/
def host : Value → HostValue
  | .simple text => .simple (Text.read text)
  | .error text => .error (Text.read text)
  | .integer number => .integer number
  | .bulk payload => .bulk payload
  | .absentBulk => .absentBulk
  | .array items => .array (hostItems items)
  | .absentArray => .absentArray
  | .null => .null
  | .foreign object => .foreign object

/-- The items of an array as the host application gets them. -/
def hostItems : List Value → List HostValue
  | [] => []
  | item :: rest => host item :: hostItems rest

end

end Value

/-- Decode the value at an offset for the host application; the answer is the value and the
offset behind it. -/
def decodeHost (limits : Limits) (data : Bytes) (offset : Nat) :
    Except DecodeError (HostValue × Nat) :=
  (decode limits data offset).map fun decoded => (decoded.1.host, decoded.2)

end DurableStore
