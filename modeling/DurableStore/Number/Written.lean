import DurableStore.Number.Binary64
import DurableStore.Text.Quoted

/-!
# Numbers as people write them

Settings and command-line options are numbers written by people: with blanks
around them, underscores between digits, and digits of any script.  This module
reads such integers and doubles.

Main definitions:

- `Written.integer`: the integer that a text denotes.
- `Written.double`: the double nearest to the number that a text denotes.
-/

namespace DurableStore

/-- Why a text does not denote a number. -/
inductive NumberError
  /-- The text is not an integer. -/
  | notInteger (text : String)
  /-- The text is an integer of more digits than are read. -/
  | tooManyDigits (count : Nat)
  /-- The text is not a number. -/
  | notNumber (text : String)
  deriving DecidableEq, Repr

namespace Written

/-- The most digits of an integer that are read. -/
def maxDigits : Nat := 4300

/-- The most characters of a text that a message about integers shows. -/
def maxShown : Nat := 200

end Written

namespace NumberError

/-- The wording of the refusal of a number. -/
def message : NumberError → String
  | .notInteger text =>
      "invalid literal for int() with base 10: " ++
        String.ofList ((Text.quoteString text).toList.take Written.maxShown)
  | .tooManyDigits count =>
      s!"Exceeds the limit ({Written.maxDigits} digits) for integer string conversion: " ++
        s!"value has {count} digits; " ++
        "use sys.set_int_max_str_digits() to increase the limit"
  | .notNumber text => "could not convert string to float: " ++ Text.quoteString text

end NumberError

namespace Written

/-! ## Characters -/

/-- The code points of the digits zero of all scripts; the other nine digits
follow each of them. -/
def zeros : List Nat := [
  0x30, 0x660, 0x6f0, 0x7c0, 0x966, 0x9e6, 0xa66, 0xae6, 0xb66, 0xbe6, 0xc66, 0xce6, 0xd66,
  0xde6, 0xe50, 0xed0, 0xf20, 0x1040, 0x1090, 0x17e0, 0x1810, 0x1946, 0x19d0, 0x1a80, 0x1a90,
  0x1b50, 0x1bb0, 0x1c40, 0x1c50, 0xa620, 0xa8d0, 0xa900, 0xa9d0, 0xa9f0, 0xaa50, 0xabf0, 0xff10,
  0x104a0, 0x10d30, 0x11066, 0x110f0, 0x11136, 0x111d0, 0x112f0, 0x11450, 0x114d0, 0x11650,
  0x116c0, 0x11730, 0x118e0, 0x11950, 0x11c50, 0x11d50, 0x11da0, 0x16a60, 0x16ac0, 0x16b50,
  0x1d7ce, 0x1d7d8, 0x1d7e2, 0x1d7ec, 0x1d7f6, 0x1e140, 0x1e2f0, 0x1e950, 0x1fbf0]

/-- The value of a decimal digit of any script. -/
def digitValue? (c : Char) : Option Nat :=
  (zeros.find? fun first => first ≤ c.toNat && c.toNat < first + 10).map (c.toNat - ·)

/-- Whether a character above ASCII is a blank. -/
def isWideBlank (c : Char) : Bool :=
  [0x85, 0xA0, 0x1680, 0x2028, 0x2029, 0x202F, 0x205F, 0x3000].contains c.toNat ||
    (0x2000 ≤ c.toNat && c.toNat ≤ 0x200A)

/-- Whether an ASCII character is a blank: a space, or one of the controls from
tab to carriage return. -/
def isBlank (c : Char) : Bool :=
  c == ' ' || ('\t' ≤ c && c ≤ '\r')

/-- Replace a digit of any script by the ASCII digit and any blank above ASCII
by a space.  No other character above ASCII occurs in a number. -/
def simplify? (c : Char) : Option Char :=
  if c.toNat < 0x7F then some c
  else if isWideBlank c then some ' '
  else (digitValue? c).map Nat.digitChar

/-- Remove the blanks around a text. -/
def trim (text : List Char) : List Char :=
  ((text.dropWhile isBlank).reverse.dropWhile isBlank).reverse

/-! ## Parts of numbers -/

/-- Split off the sign; the flag says whether it is a minus. -/
def splitSign : List Char → Bool × List Char
  | '-' :: rest => (true, rest)
  | '+' :: rest => (false, rest)
  | rest => (false, rest)

/-- Remove underscores, each of which must stand between two digits; `last`
says whether the character before was a digit. -/
def dropUnderscores? : Bool → List Char → Option (List Char)
  | _, [] => some []
  | last, '_' :: rest =>
      if last && (rest.head?.map Char.isDigit).getD false then dropUnderscores? false rest
      else none
  | _, c :: rest => (dropUnderscores? c.isDigit rest).map (c :: ·)

/-- The number that a list of ASCII digits denotes. -/
def magnitude (digits : List Char) : Nat :=
  Nat.ofDigitChars 10 digits 0

/-! ## Integers -/

/-- Read an integer, given without a sign and without blanks around it. -/
def readMagnitude (text : String) (body : List Char) : Except NumberError Nat :=
  let numeral := body.takeWhile fun c => c.isDigit || c == '_'
  match dropUnderscores? false numeral with
  | none => .error (.notInteger text)
  | some digits =>
      if digits.length > maxDigits then .error (.tooManyDigits digits.length)
      else if digits.isEmpty || numeral.length < body.length then .error (.notInteger text)
      else .ok (magnitude digits)

/-- The integer that a text denotes. -/
def integer (text : String) : Except NumberError Int :=
  match text.toList.mapM simplify? with
  | none => .error (.notInteger text)
  | some plain =>
      let (negative, body) := splitSign (trim plain)
      match readMagnitude text body with
      | .error error => .error error
      | .ok n => .ok (if negative then -(n : Int) else n)

/-! ## Doubles -/

/-- The name of a number that is not finite, without regard to case. -/
def special? (negative : Bool) (body : List Char) : Option Binary64 :=
  let name := String.ofList (body.map Char.toLower)
  if name = "inf" ∨ name = "infinity" then some (.infinity negative)
  else if name = "nan" then some (.nan negative)
  else none

/-- Read the exponent behind the digits of a decimal. -/
def readExponent? : List Char → Option Int
  | [] => some 0
  | mark :: rest =>
      let (negative, digits) := splitSign rest
      if (mark == 'e' || mark == 'E') && !digits.isEmpty && digits.all Char.isDigit then
        some (if negative then -(magnitude digits : Int) else magnitude digits)
      else none

/-- Read a decimal with an optional fraction and an optional exponent, given
without its sign. -/
def readDecimal? (negative : Bool) (body : List Char) : Option Binary64 :=
  let whole := body.takeWhile Char.isDigit
  let afterWhole := body.drop whole.length
  let (places, tail) := match afterWhole with
    | '.' :: rest => (rest.takeWhile Char.isDigit, rest.dropWhile Char.isDigit)
    | rest => ([], rest)
  if whole.isEmpty && places.isEmpty then none
  else (readExponent? tail).map fun exponent =>
    .ofDecimal negative (magnitude (whole ++ places)) (exponent - places.length)

/-- The double nearest to the number that a text denotes. -/
def double (text : String) : Except NumberError Binary64 :=
  let read? : Option Binary64 := do
    let plain ← text.toList.mapM simplify?
    let body ← dropUnderscores? false (trim plain)
    let (negative, body) := splitSign body
    match special? negative body with
    | some x => some x
    | none => readDecimal? negative body
  match read? with
  | some x => .ok x
  | none => .error (.notNumber text)

end Written

end DurableStore
