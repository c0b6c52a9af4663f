import DurableStore.Bytes

/-!
# Text in octets

Names, keys and status lines are text, but a peer may send octets that are not
valid UTF-8.  Text is therefore kept as the octets it came in, and read as a
sequence of glyphs: the characters it encodes and, one by one, the stray octets
that belong to no character.  No octet is lost either way.  Texts that no octets are
read as do not occur here; the module `Text.HostText` has them.
-/

namespace DurableStore

/-- One unit of a text: a character, or an octet that is part of none. -/
inductive Glyph
  | char (c : Char)
  | stray (octet : UInt8)
  deriving DecidableEq, Repr

/-- A maximal run of neighbouring stray octets. -/
structure StrayRun where
  /-- The number of glyphs before the run. -/
  position : Nat
  /-- The first octet of the run. -/
  first : UInt8
  /-- The number of octets in the run. -/
  length : Nat
  deriving DecidableEq, Repr

namespace Glyph

/-- The octets of a glyph. -/
def bytes : Glyph → Bytes
  | .char c => String.utf8EncodeChar c
  | .stray octet => [octet]

/-- Whether a glyph is an undecodable octet. -/
def isStray : Glyph → Bool
  | .char _ => false
  | .stray _ => true

end Glyph

namespace Text

/-- The character whose UTF-8 form the octets begin with, if there is one.
Overlong forms, surrogates and values above the Unicode range are no form of
any character. -/
def leadingChar? (bytes : Bytes) : Option Char :=
  ByteArray.utf8DecodeChar? (bytes.take 4).toByteArray 0

/-- The glyphs of a text, the first `skip` octets being part of a glyph already
read. -/
def glyphsAfter : Nat → Bytes → List Glyph
  | _, [] => []
  | skip + 1, _ :: rest => glyphsAfter skip rest
  | 0, octet :: rest =>
      match leadingChar? (octet :: rest) with
      | some c => .char c :: glyphsAfter (c.utf8Size - 1) rest
      | none => .stray octet :: glyphsAfter 0 rest

/-- The glyphs of a text. -/
def glyphs (text : Bytes) : List Glyph :=
  glyphsAfter 0 text

/-- The first run of stray octets among glyphs, `position` of which precede. -/
def strayRunFrom? : Nat → List Glyph → Option StrayRun
  | _, [] => none
  | position, .char _ :: rest => strayRunFrom? (position + 1) rest
  | position, .stray octet :: rest =>
      some ⟨position, octet, (rest.takeWhile Glyph.isStray).length + 1⟩

/-- The first run of stray octets in a text; `none` says that the text is valid
UTF-8. -/
def strayRun? (text : Bytes) : Option StrayRun :=
  strayRunFrom? 0 (glyphs text)

/-- The octets of a text that must be valid UTF-8. -/
def validOctets (text : Bytes) : Except StrayRun Bytes :=
  match strayRun? text with
  | some run => .error run
  | none => .ok text

end Text

end DurableStore
