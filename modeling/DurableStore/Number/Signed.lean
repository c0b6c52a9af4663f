import DurableStore.Bytes

/-!
# Signed decimal numerals

The numerals of the wire format: an optional sign and at least one ASCII digit.
Leading zeros and a plus sign are read, but never written.
-/

namespace DurableStore.Numeral

/-- Whether an octet is an ASCII digit. -/
def isDigit (octet : UInt8) : Bool :=
  0x30 ≤ octet && octet ≤ 0x39

/-- The number that a string of ASCII digits denotes. -/
def magnitude (digits : Bytes) : Nat :=
  digits.foldl (fun n digit => 10 * n + (digit.toNat - 0x30)) 0

/-- The number that an unsigned numeral denotes. -/
def parseUnsigned? (digits : Bytes) : Option Nat :=
  if digits ≠ [] ∧ digits.all isDigit then some (magnitude digits) else none

/-- The number that a numeral with an optional sign denotes. -/
def parse? : Bytes → Option Int
  | 0x2B :: digits => (parseUnsigned? digits).map fun n => (n : Int)
  | 0x2D :: digits => (parseUnsigned? digits).map fun n => -(n : Int)
  | digits => (parseUnsigned? digits).map fun n => (n : Int)

/-- The shortest numeral of a natural number. -/
def ofNat (n : Nat) : Bytes :=
  (Nat.toDigits 10 n).map fun digit => UInt8.ofNat digit.toNat

/-- The shortest numeral of an integer. -/
def ofInt : Int → Bytes
  | .ofNat n => ofNat n
  | .negSucc n => 0x2D :: ofNat (n + 1)

/-- Whether an integer fits a signed word of 64 bits. -/
def fits64 (n : Int) : Bool :=
  -0x8000000000000000 ≤ n && n < 0x8000000000000000

/-- The most octets a numeral of a 64-bit integer needs: a sign and nineteen
digits. -/
def maxLength : Nat := 20

end DurableStore.Numeral
