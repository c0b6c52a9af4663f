import DurableStore.Text.Utf8

/-!
# Names without regard to case

Command names and log level names are compared after Unicode upper-casing.
All names that are looked up consist of the letters `A` to `Z`, so it is enough
to know, of each character, whether its upper-case form is one such letter: the
ASCII letters themselves, the dotless i (U+0131) and the long s (U+017F).  Some
ligatures upper-case to two or three letters; those are `SS`, `ST` and
combinations that begin with `F`, and none of them occurs in any name that is
looked up.
-/

namespace DurableStore.Text

/-- The capital letter from `A` to `Z` that is the upper-case form of a
character, if its upper-case form is one. -/
def capital? (c : Char) : Option Char :=
  if 'A' ≤ c ∧ c ≤ 'Z' then some c
  else if 'a' ≤ c ∧ c ≤ 'z' then some (Char.ofNat (c.toNat - 0x20))
  else if c = '\u0131' then some 'I'
  else if c = '\u017F' then some 'S'
  else none

/-- The capital letter of a glyph; a stray octet has none. -/
def capitalOf? : Glyph → Option Char
  | .char c => capital? c
  | .stray _ => none

/-- Whether the upper-case form of a character sequence is the given word of
capital letters. -/
def matchesWord (name : List Glyph) (word : String) : Bool :=
  name.mapM capitalOf? == some word.toList

/-- The entry of a table of capital words that a text names without regard to
case. -/
def lookupWord? {α : Type} (table : List (String × α)) (name : List Glyph) : Option α :=
  (table.find? fun entry => matchesWord name entry.1).map (·.2)

end DurableStore.Text
