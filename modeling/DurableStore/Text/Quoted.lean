import DurableStore.Text.HostText
import DurableStore.Text.Printable

/-!
# Quoted text

Messages show octet strings and texts between quotation marks, with escapes
for everything that would not survive on a terminal line.  Single quotation
marks are used unless the content holds one and holds no double one.  Octets
outside printable ASCII are written by two hexadecimal digits; a character
that is not printable is written by its code point, and so is a surrogate.
-/

namespace DurableStore

namespace Text

/-- The last `width` hexadecimal digits of a number. -/
def hexDigits : Nat → Nat → List Char
  | 0, _ => []
  | width + 1, n => hexDigits width (n / 16) ++ [Nat.digitChar (n % 16)]

/-- The escape of a code point: a backslash, a letter for the width, and
hexadecimal digits. -/
def escapeCode (code : Nat) : List Char :=
  if code < 0x100 then '\\' :: 'x' :: hexDigits 2 code
  else if code < 0x10000 then '\\' :: 'u' :: hexDigits 4 code
  else '\\' :: 'U' :: hexDigits 8 code

/-- The quotation mark for a content that holds the given characters. -/
def quoteMark (holdsSingle holdsDouble : Bool) : Char :=
  if holdsSingle && !holdsDouble then '\x22' else '\x27'

/-- How a character is shown between the quotation marks `mark`. -/
def escapeChar (mark c : Char) : List Char :=
  if c = '\\' ∨ c = mark then ['\\', c]
  else if c = '\t' then ['\\', 't']
  else if c = '\n' then ['\\', 'n']
  else if c = '\r' then ['\\', 'r']
  else if isPrintable c then [c]
  else escapeCode c.toNat

/-- How a code point is shown between the quotation marks `mark`. -/
def escapePoint (mark : Char) : CodePoint → List Char
  | .char c => escapeChar mark c
  | .surrogate index => escapeCode (CodePoint.surrogateNumber index)

/-- A text of the host application between quotation marks. -/
def quoteText (text : HostText) : String :=
  let mark := quoteMark (text.contains (.char '\x27')) (text.contains (.char '\x22'))
  String.ofList (mark :: (text.flatMap (escapePoint mark) ++ [mark]))

/-- A text, given by its octets, between quotation marks. -/
def quote (text : Bytes) : String :=
  quoteText (read text)

/-- A string between quotation marks. -/
def quoteString (s : String) : String :=
  quoteText (s.toList.map .char)

/-- How an octet is shown between the quotation marks `mark`. -/
def escapeOctet (mark : Char) (octet : UInt8) : List Char :=
  if octet < 0x80 then escapeChar mark (Char.ofNat octet.toNat)
  else escapeCode octet.toNat

/-- An octet string between quotation marks, marked by a leading `b`. -/
def quoteBytes (bytes : Bytes) : String :=
  let mark := quoteMark (bytes.contains 0x27) (bytes.contains 0x22)
  String.ofList ('b' :: mark :: (bytes.flatMap (escapeOctet mark) ++ [mark]))

end Text

namespace SurrogateRun

/-- The wording of the refusal to write a text. -/
def message (run : SurrogateRun) : String :=
  if run.length = 1 then
    "'utf-8' codec can't encode character '" ++
      String.ofList (Text.escapeCode (CodePoint.surrogateNumber run.first)) ++
      s!"' in position {run.position}: surrogates not allowed"
  else
    let last := run.position + run.length - 1
    s!"'utf-8' codec can't encode characters in position {run.position}-{last}: " ++
      "surrogates not allowed"

end SurrogateRun

/-- The wording of the refusal to write a text that holds stray octets: in the host
application they are surrogates. -/
def StrayRun.message (run : StrayRun) : String :=
  SurrogateRun.message ⟨run.position, CodePoint.escape run.first, run.length⟩

end DurableStore
