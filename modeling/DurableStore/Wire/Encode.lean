import DurableStore.Number.Signed
import DurableStore.Text.Quoted
import DurableStore.Wire.Value

/-!
# Encoding

Every value that can stand on the wire has one written form: numerals are the
shortest ones and lengths are exact.  A value cannot be written if somewhere in
it a status or error text holds a line break, an integer does not fit 64 bits,
or a foreign object stands in the place of a value.  The limits of decoders do
not concern the encoder.

Since the texts of a value are octets, they can be written.  What the encoder
makes of texts of the host application that no octets are read as is
`HostValue.encode`; on the others the two agree, as `Value.encode_host` states.

Main definitions:

- `Value.encodeFault?`: the first obstacle to writing a value, in the order in
  which its parts are written.
- `Value.wire`: the written form, which is meaningful if there is no obstacle.
- `Value.encode`: both together.
-/

namespace DurableStore

/-- Why a value has no written form. -/
inductive EncodeError
  /-- A status or error text holds a carriage return or a line feed. -/
  | lineBreak (text : Bytes)
  /-- An integer does not fit 64 bits. -/
  | wideInteger (number : Int)
  /-- A foreign object stands in the place of a value. -/
  | notAValue (object : Foreign)
  deriving DecidableEq, Repr

namespace Foreign

/-- How a foreign object is shown in messages. -/
def describe : Foreign → String
  | .none => "None"
  | .flag true => "True"
  | .flag false => "False"
  | .number n => toString n
  | .text s => Text.quoteString s

end Foreign

namespace EncodeError

/-- The wording of an obstacle to writing a value. -/
def message : EncodeError → String
  | .lineBreak text => "line value may not contain CR or LF: " ++ Text.quote text
  | .wideInteger number => s!"integer out of 64-bit range: {number}"
  | .notAValue object => "not a protocol value: " ++ object.describe

end EncodeError

namespace Value

/-- Whether a text holds neither a carriage return nor a line feed. -/
def isLine (text : Bytes) : Bool :=
  text.all fun octet => octet != 0x0D && octet != 0x0A

mutual

/-- The first obstacle to writing a value. -/
def encodeFault? : Value → Option EncodeError
  | .simple text => if isLine text then none else some (.lineBreak text)
  | .error text => if isLine text then none else some (.lineBreak text)
  | .integer number => if Numeral.fits64 number then none else some (.wideInteger number)
  | .array items => itemsFault? items
  | .foreign object => some (.notAValue object)
  | .bulk _ | .absentBulk | .absentArray | .null => none

/-- The first obstacle to writing the items of an array. -/
def itemsFault? : List Value → Option EncodeError
  | [] => none
  | item :: rest =>
      match encodeFault? item with
      | some obstacle => some obstacle
      | none => itemsFault? rest

end

/-- A tag octet, a line and its terminator, in front of `tail`. -/
def wireLine (tag : UInt8) (line tail : Bytes) : Bytes :=
  tag :: (line ++ Bytes.crlf ++ tail)

mutual

/-- The written form of a value, in front of `tail`. -/
def wireBefore : Value → Bytes → Bytes
  | .simple text, tail => wireLine 0x2B text tail
  | .error text, tail => wireLine 0x2D text tail
  | .integer number, tail => wireLine 0x3A (Numeral.ofInt number) tail
  | .bulk payload, tail =>
      wireLine 0x24 (Numeral.ofNat payload.length) (payload ++ Bytes.crlf ++ tail)
  | .absentBulk, tail => wireLine 0x24 (Numeral.ofInt (-1)) tail
  | .array items, tail => wireLine 0x2A (Numeral.ofNat items.length) (wireItems items tail)
  | .absentArray, tail => wireLine 0x2A (Numeral.ofInt (-1)) tail
  | .null, tail => wireLine 0x5F [] tail
  | .foreign _, tail => tail

/-- The written forms of the items of an array, in front of `tail`. -/
def wireItems : List Value → Bytes → Bytes
  | [], tail => tail
  | item :: rest, tail => wireBefore item (wireItems rest tail)

end

/-- The written form of a value. -/
def wire (value : Value) : Bytes :=
  wireBefore value []

/-- Write a value, or say why it cannot be written. -/
def encode (value : Value) : Except EncodeError Bytes :=
  match encodeFault? value with
  | some obstacle => .error obstacle
  | none => .ok value.wire

end Value

end DurableStore
