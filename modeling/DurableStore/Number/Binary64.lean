/-!
# Binary64 numbers

The doubles of IEEE 754 by their 64 bits: a sign, eleven bits of exponent and
fifty-two bits of fraction.  Reading a decimal and printing a double are exact
computations on natural numbers; no machine arithmetic is involved.

A finite double is `significand · 2 ^ exponent` with `significand < 2 ^ 53` and
`-1074 ≤ exponent`.

Main definitions:

- `Binary64.ofDecimal`: the double nearest to `digits · 10 ^ exponent`, of two
  equally near ones the one with the even significand.
- `Binary64.shortest`: the shortest decimal that reads back as a given double,
  of those of equal length the nearest to it.
-/

namespace DurableStore

/-- A double, by its bits. -/
structure Binary64 where
  bits : UInt64
  deriving DecidableEq, Repr

namespace Binary64

/-- The double of a sign bit, eleven exponent bits and fifty-two fraction bits. -/
def ofParts (negative : Bool) (exponentBits fraction : Nat) : Binary64 :=
  ⟨UInt64.ofNat
    ((if negative then Nat.pow 2 63 else 0) + exponentBits * Nat.pow 2 52 + fraction)⟩

/-- The infinity of a sign. -/
def infinity (negative : Bool) : Binary64 := ofParts negative 2047 0

/-- The quiet not-a-number of a sign. -/
def nan (negative : Bool) : Binary64 := ofParts negative 2047 (Nat.pow 2 51)

/-- The number one. -/
def one : Binary64 := ofParts false 1023 0

/-- Whether the sign bit is set. -/
def isNegative (x : Binary64) : Bool := decide (Nat.pow 2 63 ≤ x.bits.toNat)

/-- The eleven exponent bits. -/
def exponentBits (x : Binary64) : Nat := x.bits.toNat / Nat.pow 2 52 % Nat.pow 2 11

/-- The fifty-two fraction bits. -/
def fraction (x : Binary64) : Nat := x.bits.toNat % Nat.pow 2 52

/-! ## From decimals -/

/-- A quotient rounded to the nearest integer, of two equally near ones to the
even one. -/
def roundDiv (numerator denominator : Nat) : Nat :=
  let quotient := numerator / denominator
  let remainder := numerator % denominator
  if 2 * remainder < denominator then quotient
  else if 2 * remainder > denominator then quotient + 1
  else if quotient % 2 = 0 then quotient else quotient + 1

/-- The double of a significand of at most `2 ^ 53` and an exponent of at least
`-1074`; the significand has 53 bits unless the exponent is `-1074`. -/
def ofSignificand (negative : Bool) (significand : Nat) (exponent : Int) : Binary64 :=
  if significand < Nat.pow 2 52 then ofParts negative 0 significand
  else if significand = Nat.pow 2 53 then
    if exponent + 1 > 971 then infinity negative
    else ofParts negative (exponent + 1076).toNat 0
  else if exponent > 971 then infinity negative
  else ofParts negative (exponent + 1075).toNat (significand - Nat.pow 2 52)

/-- The double nearest to a positive fraction. -/
def ofFraction (negative : Bool) (numerator denominator : Nat) : Binary64 :=
  let estimate : Int := (Nat.log2 numerator : Int) - (Nat.log2 denominator : Int)
  -- the value is at least `2 ^ lead` and below `2 ^ (lead + 1)`
  let lead : Int :=
    if numerator * Nat.pow 2 (-estimate).toNat < denominator * Nat.pow 2 estimate.toNat
    then estimate - 1 else estimate
  let exponent : Int := max (lead - 52) (-1074)
  let significand :=
    roundDiv (numerator * Nat.pow 2 (-exponent).toNat) (denominator * Nat.pow 2 exponent.toNat)
  ofSignificand negative significand exponent

/-- The double nearest to `digits · 10 ^ exponent`, with a sign of its own so
that zero can be negative.  Decimals beyond the range of doubles are settled by
their size alone. -/
def ofDecimal (negative : Bool) (digits : Nat) (exponent : Int) : Binary64 :=
  let size : Int := (Nat.toDigits 10 digits).length + exponent
  if digits = 0 ∨ size < -400 then ofParts negative 0 0
  else if size > 400 then infinity negative
  else ofFraction negative (digits * Nat.pow 10 exponent.toNat) (Nat.pow 10 (-exponent).toNat)

/-! ## To decimals -/

/-- A decimal `digits · 10 ^ exponent`. -/
structure Decimal where
  digits : Nat
  exponent : Int
  deriving DecidableEq, Repr

/-- The significand and the exponent of a finite double. -/
def decompose (x : Binary64) : Nat × Int :=
  if x.exponentBits = 0 then (x.fraction, -1074)
  else (x.fraction + Nat.pow 2 52, (x.exponentBits : Int) - 1075)

/-- Whether a decimal, with the sign of a double, reads back as that double. -/
def readsBack (x : Binary64) (decimal : Decimal) : Bool :=
  ofDecimal x.isNegative decimal.digits decimal.exponent == x

/-- The power of ten of the leading digit of a positive fraction. -/
def leadingPower (numerator denominator : Nat) : Int :=
  let digitsOf (n : Nat) : Int := (Nat.toDigits 10 n).length
  let estimate := digitsOf numerator - digitsOf denominator
  if numerator * Nat.pow 10 (-estimate).toNat < denominator * Nat.pow 10 estimate.toNat
  then estimate - 1 else estimate

/-- The decimals of `count` digits next to a positive fraction whose leading
digit has the power `lead`, the nearer one first. -/
def neighbours (numerator denominator : Nat) (lead : Int) (count : Nat) :
    Decimal × Decimal :=
  let exponent := lead - (count : Int) + 1
  let scaledNumerator := numerator * Nat.pow 10 (-exponent).toNat
  let scaledDenominator := denominator * Nat.pow 10 exponent.toNat
  let below := scaledNumerator / scaledDenominator
  if roundDiv scaledNumerator scaledDenominator = below then
    (⟨below, exponent⟩, ⟨below + 1, exponent⟩)
  else (⟨below + 1, exponent⟩, ⟨below, exponent⟩)

/-- The first decimal that reads back, with `count` digits or up to `fuel`
more. -/
def shortestFrom (x : Binary64) (numerator denominator : Nat) (lead : Int) :
    Nat → Nat → Decimal
  | 0, count => (neighbours numerator denominator lead count).1
  | fuel + 1, count =>
      let (nearer, other) := neighbours numerator denominator lead count
      if x.readsBack nearer then nearer
      else if x.readsBack other then other
      else shortestFrom x numerator denominator lead fuel (count + 1)

/-- The shortest decimal that reads back as a finite double that is not zero;
seventeen digits always do. -/
def shortest (x : Binary64) : Decimal :=
  let (significand, exponent) := x.decompose
  let numerator := significand * Nat.pow 2 exponent.toNat
  let denominator := Nat.pow 2 (-exponent).toNat
  shortestFrom x numerator denominator (leadingPower numerator denominator) 16 1

/-! ## Text -/

/-- Drop the zeros at the end of a list of digits. -/
def dropTrailingZeros (digits : List Char) : List Char :=
  (digits.reverse.dropWhile (· == '0')).reverse

/-- The text of the digits `0.d₁d₂… · 10 ^ point`.  Positional notation is used
for points from -3 to 16, and always shows a fraction; otherwise one digit
stands before the point, and the exponent has a sign and at least two digits. -/
def layout (digits : List Char) (point : Int) : List Char :=
  let count : Int := digits.length
  if -4 < point ∧ point ≤ 16 then
    if point ≤ 0 then '0' :: '.' :: (List.replicate (-point).toNat '0' ++ digits)
    else if count ≤ point then
      digits ++ List.replicate (point - count).toNat '0' ++ ['.', '0']
    else digits.take point.toNat ++ '.' :: digits.drop point.toNat
  else
    let power := point - 1
    let powerDigits := Nat.toDigits 10 power.natAbs
    let mantissa := match digits with
      | first :: second :: rest => first :: '.' :: second :: rest
      | short => short
    mantissa ++ 'e' :: (if power < 0 then '-' else '+') ::
      (List.replicate (2 - powerDigits.length) '0' ++ powerDigits)

/-- The text of a double: the shortest decimal that reads back as it. -/
def text (x : Binary64) : String :=
  if x.exponentBits = 2047 then
    if x.fraction ≠ 0 then "nan" else if x.isNegative then "-inf" else "inf"
  else
    let magnitude :=
      if x.exponentBits = 0 ∧ x.fraction = 0 then layout ['0'] 1
      else
        let decimal := x.shortest
        let digits := Nat.toDigits 10 decimal.digits
        layout (dropTrailingZeros digits) (digits.length + decimal.exponent)
    String.ofList (if x.isNegative then '-' :: magnitude else magnitude)

end Binary64

end DurableStore
