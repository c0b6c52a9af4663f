import DurableStore.Number.Signed
import DurableStore.Proofs.Text.Validity
import Mathlib.Algebra.Group.Nat.Defs

/-!
# Decimal numerals

A numeral is an optional sign and at least one decimal digit.  This module
states that as a grammar, which also says what number a numeral denotes, and
shows that numerals are read by it.  The shortest numeral of a number denotes
that number, holds no octet of a line terminator, and has no more octets than
the number has digits.  In the other direction a numeral of few octets denotes a
small number.

Main results:

- Definition `Numeral.Denotes`: the grammar of numerals.
- Theorem `Numeral.parse_eq_some`: numerals are read by the grammar.
- Theorem `Numeral.denotes_ofInt`: the shortest numeral of a number denotes it.
- Theorem `Numeral.ofString_int`: it is the number in decimal.
- Theorem `Numeral.length_ofNat_le_iff`: its length tells the size of the
  number.
- Theorem `Numeral.Denotes.natAbs_lt`: a numeral of few octets denotes a small
  number.
- Definition `Numeral.Plain` and theorem `Numeral.Denotes.plain_iff`: the numeral
  of a number that has no octet too many is the shortest one.
-/

namespace DurableStore.Numeral

/-! ## The grammar of numerals -/

/-- A string of decimal digits, the most significant first, denotes a number. -/
inductive Digits : Bytes → Nat → Prop
  /-- One digit. -/
  | one {digit : Nat} (hdigit : digit < 10) : Digits [UInt8.ofNat (0x30 + digit)] digit
  /-- Digits and one more behind them. -/
  | more {digits : Bytes} {n digit : Nat} (hdigits : Digits digits n) (hdigit : digit < 10) :
      Digits (digits ++ [UInt8.ofNat (0x30 + digit)]) (10 * n + digit)

/-- A string of decimal digits, with a sign or without one, denotes a number. -/
inductive Denotes : Bytes → Int → Prop
  /-- There is no sign. -/
  | plain {digits : Bytes} {n : Nat} (hdigits : Digits digits n) : Denotes digits n
  /-- The sign is a plus. -/
  | plus {digits : Bytes} {n : Nat} (hdigits : Digits digits n) : Denotes (0x2B :: digits) n
  /-- The sign is a minus. -/
  | minus {digits : Bytes} {n : Nat} (hdigits : Digits digits n) : Denotes (0x2D :: digits) (-n)

/-- The octet of a decimal digit. -/
theorem toNat_ofNat_of_lt {digit : Nat} (hdigit : digit < 10) :
    (UInt8.ofNat (0x30 + digit)).toNat = 0x30 + digit := by
  rw [UInt8.toNat_ofNat']
  omega

/-- The octets of decimal digits are those from the octet of zero to that of
nine. -/
theorem isDigit_iff {octet : UInt8} :
    isDigit octet = true ↔ ∃ digit < 10, octet = UInt8.ofNat (0x30 + digit) := by
  have hrange : isDigit octet = true ↔ 0x30 ≤ octet.toNat ∧ octet.toNat ≤ 0x39 := by
    simp [isDigit, UInt8.le_iff_toNat_le]
  rw [hrange]
  constructor
  · rintro ⟨hlow, hhigh⟩
    refine ⟨octet.toNat - 0x30, by omega, ?_⟩
    have hsum : 0x30 + (octet.toNat - 0x30) = octet.toNat := by omega
    rw [hsum, UInt8.ofNat_toNat]
  · rintro ⟨digit, hdigit, rfl⟩
    rw [toNat_ofNat_of_lt hdigit]
    omega

/-- One more digit makes a number ten times as large, and adds the digit. -/
theorem magnitude_concat (digits : Bytes) {digit : Nat} (hdigit : digit < 10) :
    magnitude (digits ++ [UInt8.ofNat (0x30 + digit)]) = 10 * magnitude digits + digit := by
  simp only [magnitude, List.foldl_append, List.foldl_cons, List.foldl_nil,
    toNat_ofNat_of_lt hdigit, Nat.add_sub_cancel_left]

/-- A string of digits is not empty and holds nothing but digits. -/
theorem Digits.all_isDigit {digits : Bytes} {n : Nat} (hdigits : Digits digits n) :
    digits ≠ [] ∧ digits.all isDigit = true := by
  induction hdigits with
  | one hdigit => simpa using isDigit_iff.mpr ⟨_, hdigit, rfl⟩
  | more hdigits hdigit ih =>
      refine ⟨by simp, ?_⟩
      simpa [ih.2] using isDigit_iff.mpr ⟨_, hdigit, rfl⟩

/-- A string of digits denotes its magnitude. -/
theorem Digits.magnitude_eq {digits : Bytes} {n : Nat} (hdigits : Digits digits n) :
    magnitude digits = n := by
  induction hdigits with
  | one hdigit => simpa [magnitude] using magnitude_concat [] hdigit
  | more hdigits hdigit ih => rw [magnitude_concat _ hdigit, ih]

/-- A string that is not empty and holds nothing but digits denotes its
magnitude. -/
theorem digits_magnitude {digits : Bytes} (hsome : digits ≠ [])
    (hall : digits.all isDigit = true) : Digits digits (magnitude digits) := by
  -- The induction takes the last digit off.
  induction hlength : digits.length generalizing digits with
  | zero => exact absurd (List.eq_nil_of_length_eq_zero hlength) hsome
  | succ length ih =>
      obtain ⟨front, last, rfl⟩ : ∃ front last, digits = front ++ [last] :=
        ⟨digits.dropLast, digits.getLast hsome, (List.dropLast_concat_getLast hsome).symm⟩
      rw [List.all_append, Bool.and_eq_true] at hall
      obtain ⟨digit, hdigit, rfl⟩ := isDigit_iff.mp (List.all_eq_true.mp hall.2 last (by simp))
      rw [magnitude_concat front hdigit]
      by_cases hfront : front = []
      · subst hfront
        simpa [magnitude] using Digits.one hdigit
      · exact .more (ih hfront hall.1 (by simpa using hlength)) hdigit

/-- The unsigned numerals are the strings of digits. -/
theorem parseUnsigned_eq_some {digits : Bytes} {n : Nat} :
    parseUnsigned? digits = some n ↔ Digits digits n := by
  unfold parseUnsigned?
  constructor
  · intro hparse
    split at hparse
    · rename_i hall
      cases hparse
      exact digits_magnitude hall.1 hall.2
    · contradiction
  · intro hdigits
    rw [if_pos hdigits.all_isDigit, hdigits.magnitude_eq]

/-- A string of digits does not begin with a sign. -/
theorem Digits.head_ne {sign : UInt8} {rest : Bytes} {n : Nat}
    (hdigits : Digits (sign :: rest) n) : sign ≠ 0x2B ∧ sign ≠ 0x2D := by
  have hsign := List.all_eq_true.mp hdigits.all_isDigit.2 sign List.mem_cons_self
  constructor <;> rintro rfl <;> cases hsign

/-- A numeral is read as the number that it denotes. -/
theorem Denotes.parse {line : Bytes} {n : Int} (hdenotes : Denotes line n) :
    parse? line = some n := by
  cases hdenotes with
  | plain hdigits =>
      unfold parse?
      split
      · exact absurd rfl hdigits.head_ne.1
      · exact absurd rfl hdigits.head_ne.2
      · rw [parseUnsigned_eq_some.mpr hdigits]
        rfl
  | plus hdigits =>
      rw [parse?, parseUnsigned_eq_some.mpr hdigits]
      rfl
  | minus hdigits =>
      rw [parse?, parseUnsigned_eq_some.mpr hdigits]
      rfl

/-- Numerals are read by the grammar. -/
theorem parse_eq_some {line : Bytes} {n : Int} : parse? line = some n ↔ Denotes line n := by
  refine ⟨fun hparse => ?_, Denotes.parse⟩
  unfold parse? at hparse
  split at hparse
  · obtain ⟨m, hdigits, rfl⟩ := by simpa [Option.bind_eq_some_iff] using hparse
    exact .plus (parseUnsigned_eq_some.mp hdigits)
  · obtain ⟨m, hdigits, rfl⟩ := by simpa [Option.bind_eq_some_iff] using hparse
    exact .minus (parseUnsigned_eq_some.mp hdigits)
  · obtain ⟨m, hdigits, rfl⟩ := by simpa [Option.bind_eq_some_iff] using hparse
    exact .plain (parseUnsigned_eq_some.mp hdigits)

/-- Digits and signs are no octets of a line terminator. -/
theorem Denotes.ne_break {line : Bytes} {n : Int} (hdenotes : Denotes line n) {octet : UInt8}
    (hmem : octet ∈ line) : octet ≠ 0x0D ∧ octet ≠ 0x0A := by
  have hplain : ∀ {digits : Bytes} {m : Nat}, Digits digits m → octet ∈ digits →
      octet ≠ 0x0D ∧ octet ≠ 0x0A := by
    intro digits m hdigits hmem
    have hdigit := List.all_eq_true.mp hdigits.all_isDigit.2 octet hmem
    constructor <;> rintro rfl <;> cases hdigit
  cases hdenotes with
  | plain hdigits => exact hplain hdigits hmem
  | plus hdigits | minus hdigits =>
      rcases List.mem_cons.mp hmem with rfl | hmem
      · decide
      · exact hplain hdigits hmem

/-- Few digits denote a small number. -/
theorem Digits.lt {digits : Bytes} {n : Nat} (hdigits : Digits digits n) :
    n < 10 ^ digits.length := by
  induction hdigits with
  | one hdigit => simpa using hdigit
  | more hdigits hdigit ih =>
      rw [List.length_append, List.length_singleton, Nat.pow_succ]
      omega

/-- A numeral of few octets denotes a small number. -/
theorem Denotes.natAbs_lt {line : Bytes} {n : Int} (hdenotes : Denotes line n) :
    n.natAbs < 10 ^ line.length := by
  have hsigned : ∀ (sign : UInt8) (digits : Bytes),
      10 ^ digits.length ≤ 10 ^ (sign :: digits).length := fun sign digits =>
    Nat.pow_le_pow_right (by decide) (Nat.le_succ _)
  cases hdenotes with
  | plain hdigits => exact hdigits.lt
  | plus hdigits => exact Nat.lt_of_lt_of_le hdigits.lt (hsigned _ _)
  | minus hdigits =>
      rw [Int.natAbs_neg]
      exact Nat.lt_of_lt_of_le hdigits.lt (hsigned _ _)

/-! ## The shortest numeral of a number -/

/-- The octet of a decimal digit denotes the digit's code. -/
theorem toNat_ofNat_digit {digit : Char} (hdigit : digit.isDigit = true) :
    (UInt8.ofNat digit.toNat).toNat = digit.toNat := by
  have hcode : 48 ≤ digit.toNat ∧ digit.toNat ≤ 57 := by
    simpa [Char.isDigit, UInt32.le_iff_toNat_le] using hdigit
  rw [UInt8.toNat_ofNat']
  omega

/-- Every octet of the shortest numeral of a natural number is a digit. -/
theorem isDigit_of_mem_ofNat {n : Nat} {octet : UInt8} (hmem : octet ∈ ofNat n) :
    isDigit octet = true := by
  rcases List.mem_map.mp hmem with ⟨digit, hdigit, rfl⟩
  have hclass : digit.isDigit = true :=
    Nat.isDigit_of_mem_toDigits (by decide) (by decide) hdigit
  have hcode : 48 ≤ digit.toNat ∧ digit.toNat ≤ 57 := by
    simpa [Char.isDigit, UInt32.le_iff_toNat_le] using hclass
  simp only [isDigit, Bool.and_eq_true, decide_eq_true_eq, UInt8.le_iff_toNat_le,
    toNat_ofNat_digit hclass]
  exact hcode

/-- The shortest numeral of a natural number is not empty. -/
theorem ofNat_ne_nil (n : Nat) : ofNat n ≠ [] := by
  simp [ofNat, Nat.toDigits_ne_nil]

/-- The shortest numeral of a natural number has at most `k` octets exactly if
the number has at most `k` digits. -/
theorem length_ofNat_le_iff {n k : Nat} (hk : 0 < k) : (ofNat n).length ≤ k ↔ n < 10 ^ k := by
  rw [ofNat, List.length_map, Nat.length_toDigits_le_iff (by decide) hk]

/-- The digits of a natural number denote it. -/
theorem magnitude_ofNat (n : Nat) : magnitude (ofNat n) = n := by
  have hsame : ∀ (digits : List Char) (start : Nat), (∀ digit ∈ digits, digit.isDigit = true) →
      (digits.map fun digit => UInt8.ofNat digit.toNat).foldl
        (fun n digit => 10 * n + (digit.toNat - 0x30)) start =
        Nat.ofDigitChars 10 digits start := by
    intro digits
    induction digits with
    | nil => intro start _; rfl
    | cons digit digits ih =>
        intro start hdigits
        rw [Nat.ofDigitChars_cons, List.map_cons, List.foldl_cons,
          toNat_ofNat_digit (hdigits digit List.mem_cons_self)]
        exact ih _ fun other hother => hdigits other (List.mem_cons_of_mem _ hother)
  rw [magnitude, ofNat, hsame _ _ fun digit hdigit =>
    Nat.isDigit_of_mem_toDigits (by decide) (by decide) hdigit]
  exact Nat.ofDigitChars_ten_toDigits

/-- The shortest numeral of a natural number is a string of digits that denotes
it. -/
theorem digits_ofNat (n : Nat) : Digits (ofNat n) n := by
  have hall : (ofNat n).all isDigit = true :=
    List.all_eq_true.mpr fun octet hmem => isDigit_of_mem_ofNat hmem
  have hdigits := digits_magnitude (ofNat_ne_nil n) hall
  rwa [magnitude_ofNat] at hdigits

/-- The shortest numeral of an integer denotes it. -/
theorem denotes_ofInt (n : Int) : Denotes (ofInt n) n := by
  cases n with
  | ofNat n => exact .plain (digits_ofNat n)
  | negSucc n => exact .minus (digits_ofNat (n + 1))

/-- The UTF-8 form of a decimal digit is its code. -/
theorem utf8_digit {digit : Char} (hdigit : digit.isDigit = true) :
    String.utf8EncodeChar digit = [UInt8.ofNat digit.toNat] := by
  have hcode : 48 ≤ digit.toNat ∧ digit.toNat ≤ 57 := by
    simpa [Char.isDigit, UInt32.le_iff_toNat_le] using hdigit
  exact Text.utf8_ascii (Nat.lt_of_le_of_lt hcode.2 (by decide))

/-- The shortest numeral of a natural number spells it in decimal. -/
theorem ofString_nat (n : Nat) : Bytes.ofString (toString n) = ofNat n := by
  rw [Bytes.ofString, Nat.toString_eq_repr, Nat.toList_repr, ofNat, List.map_eq_flatMap,
    List.flatMap_def, List.flatMap_def]
  apply congrArg List.flatten
  apply List.map_congr_left
  intro digit hdigit
  exact utf8_digit (Nat.isDigit_of_mem_toDigits (by decide) (by decide) hdigit)

/-- The shortest numeral of an integer spells it in decimal. -/
theorem ofString_int (n : Int) : Bytes.ofString (toString n) = ofInt n := by
  cases n with
  | ofNat n => exact ofString_nat n
  | negSucc n =>
      have hshown : toString (Int.negSucc n) = "-" ++ toString (n + 1) := rfl
      rw [hshown, Bytes.ofString, String.toList_append, List.flatMap_append]
      exact congrArg (0x2D :: ·) (ofString_nat (n + 1))

/-- The shortest numeral of a 64-bit integer is not longer than any numeral
may be. -/
theorem length_ofInt_le {n : Int} (hfits : fits64 n = true) : (ofInt n).length ≤ maxLength := by
  simp only [fits64, Bool.and_eq_true, decide_eq_true_eq] at hfits
  cases n with
  | ofNat n =>
      refine (length_ofNat_le_iff (by decide)).mpr ?_
      simp only [Int.ofNat_eq_natCast] at hfits
      simp only [maxLength]
      omega
  | negSucc n =>
      simp only [ofInt, List.length_cons, maxLength]
      have hdigits : (ofNat (n + 1)).length ≤ 19 :=
        (length_ofNat_le_iff (by decide)).mpr (by omega)
      omega

/-! ## Numerals without superfluous octets -/

/-- A numeral has no octet too many: there is no plus, no minus in front of a
zero, and no zero in front of other digits. -/
inductive Plain : Bytes → Prop
  /-- A lone zero. -/
  | zero : Plain [0x30]
  /-- No sign, and a first digit that is no zero. -/
  | positive {first : UInt8} {digits : Bytes} (hdigit : isDigit first = true)
      (hfirst : first ≠ 0x30) : Plain (first :: digits)
  /-- A minus, and a first digit that is no zero. -/
  | negative {first : UInt8} {digits : Bytes} (hdigit : isDigit first = true)
      (hfirst : first ≠ 0x30) : Plain (0x2D :: first :: digits)

/-- Equally many digits that denote the same number are the same. -/
theorem Digits.eq_of_length {digits other : Bytes} {n : Nat} (hdigits : Digits digits n)
    (hother : Digits other n) (hlength : digits.length = other.length) : digits = other := by
  -- The last digits agree because both are the remainder by ten.
  induction hdigits generalizing other with
  | one hdigit =>
      cases hother with
      | one hdigit' => rfl
      | more hfront hdigit' =>
          have hpositive := List.length_pos_iff.mpr hfront.all_isDigit.1
          simp only [List.length_append, List.length_singleton] at hlength
          omega
  | @more front m digit hfront hdigit ih =>
      generalize hn : 10 * m + digit = n at hother
      cases hother with
      | one hdigit' =>
          have hpositive := List.length_pos_iff.mpr hfront.all_isDigit.1
          simp only [List.length_append, List.length_singleton] at hlength
          omega
      | @more front' m' digit' hfront' hdigit' =>
          obtain ⟨rfl, rfl⟩ : m = m' ∧ digit = digit' := by omega
          rw [ih hfront' (by simpa using hlength)]

/-- Digits that do not begin with a zero denote a number that needs them all. -/
theorem Digits.pow_le {first : UInt8} {rest : Bytes} {n : Nat}
    (hdigits : Digits (first :: rest) n) (hfirst : first ≠ 0x30) : 10 ^ rest.length ≤ n := by
  generalize hsplit : first :: rest = digits at hdigits
  induction hdigits generalizing rest with
  | @one digit hdigit =>
      obtain ⟨rfl, rfl⟩ := List.cons.inj hsplit
      have hzero : digit ≠ 0 := fun hzero => hfirst (by rw [hzero]; rfl)
      exact Nat.pos_of_ne_zero hzero
  | @more front m digit hfront hdigit ih =>
      obtain ⟨head, middle, rfl⟩ := List.exists_cons_of_ne_nil hfront.all_isDigit.1
      rw [List.cons_append] at hsplit
      obtain ⟨rfl, rfl⟩ := List.cons.inj hsplit
      have hmiddle := ih rfl
      rw [List.length_append, List.length_singleton, Nat.pow_succ]
      omega

/-- Digits that do not begin with a zero are the shortest numeral of their
number. -/
theorem Digits.eq_ofNat {first : UInt8} {rest : Bytes} {n : Nat}
    (hdigits : Digits (first :: rest) n) (hfirst : first ≠ 0x30) : first :: rest = ofNat n := by
  apply hdigits.eq_of_length (digits_ofNat n)
  have hupper : (ofNat n).length ≤ (first :: rest).length :=
    (length_ofNat_le_iff (Nat.succ_pos _)).mpr hdigits.lt
  have hlower : rest.length < (ofNat n).length := by
    have hpositive := List.length_pos_iff.mpr (ofNat_ne_nil n)
    cases hrest : rest.length with
    | zero => exact hpositive
    | succ k =>
        have hlarge := hdigits.pow_le hfirst
        rw [hrest] at hlarge
        exact Nat.not_le.mp fun hshort =>
          Nat.not_lt.mpr hlarge ((length_ofNat_le_iff (Nat.succ_pos k)).mp hshort)
  exact Nat.le_antisymm hlower hupper

/-- A zero in front of other digits can be left out. -/
theorem Digits.tail {rest : Bytes} {n : Nat} (hdigits : Digits (0x30 :: rest) n)
    (hrest : rest ≠ []) : Digits rest n := by
  have hall : rest.all isDigit = true := by
    have hboth := hdigits.all_isDigit.2
    rw [List.all_cons, Bool.and_eq_true] at hboth
    exact hboth.2
  have hsame : magnitude rest = n := hdigits.magnitude_eq
  exact hsame ▸ digits_magnitude hrest hall

/-- The shortest numeral of a number other than zero does not begin with a zero. -/
theorem head_ofNat {n : Nat} (hn : n ≠ 0) :
    ∃ first rest, ofNat n = first :: rest ∧ isDigit first = true ∧ first ≠ 0x30 := by
  obtain ⟨first, rest, hsplit⟩ := List.exists_cons_of_ne_nil (ofNat_ne_nil n)
  refine ⟨first, rest, hsplit, isDigit_of_mem_ofNat (n := n) (by simp [hsplit]), ?_⟩
  rintro rfl
  have hdigits := digits_ofNat n
  rw [hsplit] at hdigits
  by_cases hrest : rest = []
  · subst hrest
    exact hn hdigits.magnitude_eq.symm
  · -- The digits behind the zero would be a shorter numeral of the number.
    have hshorter := (length_ofNat_le_iff (List.length_pos_iff.mpr hrest)).mpr
      (hdigits.tail hrest).lt
    rw [hsplit, List.length_cons] at hshorter
    omega

/-- The shortest numeral of a number has no octet too many. -/
theorem plain_ofInt (n : Int) : Plain (ofInt n) := by
  cases n with
  | ofNat n =>
      by_cases hn : n = 0
      · subst hn
        exact .zero
      · obtain ⟨first, rest, hsplit, hdigit, hfirst⟩ := head_ofNat hn
        rw [ofInt, hsplit]
        exact .positive hdigit hfirst
  | negSucc n =>
      obtain ⟨first, rest, hsplit, hdigit, hfirst⟩ := head_ofNat (Nat.succ_ne_zero n)
      rw [ofInt, hsplit]
      exact .negative hdigit hfirst

/-- A numeral of a number has no octet too many exactly if it is the shortest
one. -/
theorem Denotes.plain_iff {line : Bytes} {n : Int} (hdenotes : Denotes line n) :
    Plain line ↔ line = ofInt n := by
  refine ⟨fun hplain => ?_, fun hsame => hsame ▸ plain_ofInt n⟩
  cases hplain with
  | zero =>
      have hn : some 0 = some n := hdenotes.parse
      cases hn
      rfl
  | positive hdigit hfirst =>
      cases hdenotes with
      | plain hdigits => exact hdigits.eq_ofNat hfirst
      | plus hdigits => cases hdigit
      | minus hdigits => cases hdigit
  | negative hdigit hfirst =>
      cases hdenotes with
      | plain hdigits => exact absurd rfl hdigits.head_ne.2
      | @minus digits m hdigits =>
          have hpositive : 0 < m :=
            Nat.lt_of_lt_of_le (Nat.pow_pos (by decide)) (hdigits.pow_le hfirst)
          obtain ⟨k, rfl⟩ := Nat.exists_eq_succ_of_ne_zero (Nat.ne_of_gt hpositive)
          rw [hdigits.eq_ofNat hfirst]
          rfl

/-- No numeral of a number has fewer octets than the shortest one. -/
theorem Denotes.length_ofInt_le {line : Bytes} {n : Int} (hdenotes : Denotes line n) :
    (ofInt n).length ≤ line.length := by
  have hshort : ∀ {digits : Bytes} {m : Nat}, Digits digits m →
      (ofNat m).length ≤ digits.length := fun hdigits =>
    (length_ofNat_le_iff (List.length_pos_iff.mpr hdigits.all_isDigit.1)).mpr hdigits.lt
  cases hdenotes with
  | plain hdigits => exact hshort hdigits
  | plus hdigits => exact Nat.le_succ_of_le (hshort hdigits)
  | @minus digits m hdigits =>
      cases m with
      | zero => exact Nat.le_succ_of_le (hshort hdigits)
      | succ m => exact Nat.succ_le_succ (hshort hdigits)

end DurableStore.Numeral
