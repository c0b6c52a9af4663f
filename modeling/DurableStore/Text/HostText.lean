import DurableStore.Text.Utf8

/-!
# Texts of the host application

A text of the host application is a sequence of code points.  Beside characters it may
hold surrogates.  Those of one range stand for single octets: octets that are read as a
text become characters as far as they are UTF-8, and every stray octet becomes the
surrogate that stands for it.  Written back, these surrogates become their octets again,
and no other surrogate can be written.

There are more such texts than octets can be read as: several surrogates may stand for
octets which together are UTF-8, so that they are read as a character.

Main definitions:

- `Text.read`: the text that octets are read as.
- `Text.write`: the octets of a text.
-/

namespace DurableStore

/-- One unit of a text of the host application. -/
inductive CodePoint
  | char (c : Char)
  /-- The surrogate that so many others precede. -/
  | surrogate (index : Fin 0x800)
  deriving DecidableEq, Repr

/-- A text of the host application. -/
abbrev HostText := List CodePoint

/-- A run of neighbouring surrogates that cannot be written, as far as it has not been
written. -/
structure SurrogateRun where
  /-- The number of code points before the run. -/
  position : Nat
  /-- The first surrogate of the run. -/
  first : Fin 0x800
  /-- The number of surrogates in the run. -/
  length : Nat
  deriving DecidableEq, Repr

namespace CodePoint

/-- The number of a surrogate. -/
def surrogateNumber (index : Fin 0x800) : Nat :=
  0xD800 + index.val

/-- The surrogate that stands for an octet. -/
def escape (octet : UInt8) : Fin 0x800 :=
  ⟨0x400 + octet.toNat, by have := octet.toNat_lt; omega⟩

/-- Whether a surrogate stands for an octet.  None stands for an octet of ASCII. -/
def isEscape (index : Fin 0x800) : Bool :=
  decide (0x480 ≤ index.val) && decide (index.val < 0x500)

/-- A glyph as a code point. -/
def ofGlyph : Glyph → CodePoint
  | .char c => .char c
  | .stray octet => .surrogate (escape octet)

/-- Whether a code point is a surrogate. -/
def isSurrogate : CodePoint → Bool
  | .char _ => false
  | .surrogate _ => true

/-- The octets of a code point, which are meaningful if it can be written. -/
def octets : CodePoint → Bytes
  | .char c => String.utf8EncodeChar c
  | .surrogate index => [UInt8.ofNat (index.val - 0x400)]

end CodePoint

namespace Text

/-- The text that octets are read as. -/
def read (octets : Bytes) : HostText :=
  (glyphs octets).map CodePoint.ofGlyph

/-- The first surrogates among code points that cannot be written, `position` code points
preceding. -/
def unwritableFrom? : Nat → HostText → Option SurrogateRun
  | _, [] => none
  | position, .char _ :: rest => unwritableFrom? (position + 1) rest
  | position, .surrogate index :: rest =>
      if CodePoint.isEscape index then unwritableFrom? (position + 1) rest
      else some ⟨position, index, (rest.takeWhile CodePoint.isSurrogate).length + 1⟩

/-- The octets of a text. -/
def write (text : HostText) : Except SurrogateRun Bytes :=
  match unwritableFrom? 0 text with
  | some run => .error run
  | none => .ok (text.flatMap CodePoint.octets)

end Text

end DurableStore
