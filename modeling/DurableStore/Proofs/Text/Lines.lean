import DurableStore.Command
import DurableStore.Wire.Encode
import DurableStore.Wire.Fault

/-!
# Texts of one line

The text of an error goes to a peer as one line, so that it must not hold a line
break.  Numbers hold none, and quotation escapes those of the quoted content.

Main results:

- Theorem `Text.isLine_ofString`: a string without a line break can be written
  as a line.
- Theorem `Text.oneLine_quoteBytes`: quoted octets hold no line break.
- Theorem `DecodeError.oneLine_message` and `CommandError.oneLine_message`: nor
  does the wording of a failure.
-/

namespace DurableStore

namespace Text

/-! ## Strings without line breaks -/

/-- A string holds neither a carriage return nor a line feed. -/
def OneLine (s : String) : Prop :=
  ∀ c ∈ s.toList, c ≠ '\r' ∧ c ≠ '\n'

instance (s : String) : Decidable (OneLine s) :=
  List.decidableBAll (fun c => c ≠ '\r' ∧ c ≠ '\n') s.toList

/-- Strings without line breaks are joined to one. -/
@[simp] theorem oneLine_append (s t : String) : OneLine (s ++ t) ↔ OneLine s ∧ OneLine t := by
  simp only [OneLine, String.toList_append, List.mem_append]
  constructor
  · exact fun h => ⟨fun c hc => h c (.inl hc), fun c hc => h c (.inr hc)⟩
  · exact fun h c hc => hc.elim (h.1 c) (h.2 c)

/-- A digit is no line break. -/
theorem ne_break_of_isDigit {c : Char} (hdigit : c.isDigit = true) : c ≠ '\r' ∧ c ≠ '\n' := by
  constructor <;> rintro rfl <;> cases hdigit

/-- The decimal digits of a number hold no line break. -/
@[simp] theorem oneLine_nat (n : Nat) : OneLine (toString n) := by
  intro c hc
  rw [Nat.toString_eq_repr, Nat.toList_repr] at hc
  exact ne_break_of_isDigit (Nat.isDigit_of_mem_toDigits (by decide) (by decide) hc)

/-- Nor do those of an integer and its sign. -/
@[simp] theorem oneLine_int (n : Int) : OneLine (toString n) := by
  cases n with
  | ofNat n => exact oneLine_nat n
  | negSucc n =>
      change OneLine ("-" ++ toString (n + 1))
      rw [oneLine_append]
      exact ⟨by decide, oneLine_nat (n + 1)⟩

/-! ## Octets of a string -/

/-- A character that is no line break has no octet of one in its UTF-8 form. -/
theorem ne_break_of_mem_utf8 {c : Char} (hc : c ≠ '\r' ∧ c ≠ '\n') {octet : UInt8}
    (hmem : octet ∈ String.utf8EncodeChar c) : octet ≠ 0x0D ∧ octet ≠ 0x0A := by
  have hcode : c.val.toNat ≠ 13 ∧ c.val.toNat ≠ 10 := by
    constructor
    · intro hsame
      exact hc.1 (Char.ext (UInt32.toNat_inj.mp hsame))
    · intro hsame
      exact hc.2 (Char.ext (UInt32.toNat_inj.mp hsame))
  have hoctet : octet.toNat ≠ 13 ∧ octet.toNat ≠ 10 := by
    unfold String.utf8EncodeChar at hmem
    simp only [] at hmem
    split at hmem
    · simp only [List.mem_singleton] at hmem
      rw [hmem, UInt8.toNat_ofNat']
      omega
    · split at hmem
      · simp only [List.mem_cons, List.not_mem_nil, or_false] at hmem
        rcases hmem with rfl | rfl <;> rw [UInt8.toNat_ofNat'] <;> omega
      · split at hmem
        · simp only [List.mem_cons, List.not_mem_nil, or_false] at hmem
          rcases hmem with rfl | rfl | rfl <;> rw [UInt8.toNat_ofNat'] <;> omega
        · simp only [List.mem_cons, List.not_mem_nil, or_false] at hmem
          rcases hmem with rfl | rfl | rfl | rfl <;> rw [UInt8.toNat_ofNat'] <;> omega
  constructor
  · rintro rfl
    exact hoctet.1 rfl
  · rintro rfl
    exact hoctet.2 rfl

/-- A string without a line break can be written as a line. -/
theorem isLine_ofString {s : String} (hline : OneLine s) :
    Value.isLine (Bytes.ofString s) = true := by
  refine List.all_eq_true.mpr fun octet hmem => ?_
  rcases List.mem_flatMap.mp hmem with ⟨c, hc, hoctet⟩
  have hbreak := ne_break_of_mem_utf8 (hline c hc) hoctet
  simp [hbreak.1, hbreak.2]

/-! ## Quotations -/

/-- A hexadecimal digit is no line break. -/
theorem ne_break_of_mem_hexDigits {width n : Nat} {c : Char} (hmem : c ∈ hexDigits width n) :
    c ≠ '\r' ∧ c ≠ '\n' := by
  induction width generalizing n with
  | zero => cases hmem
  | succ width ih =>
      rw [hexDigits, List.mem_append, List.mem_singleton] at hmem
      rcases hmem with hmem | rfl
      · exact ih hmem
      · have hdigits : ∀ digit, digit < 16 →
            Nat.digitChar digit ≠ '\r' ∧ Nat.digitChar digit ≠ '\n' := by decide
        exact hdigits _ (Nat.mod_lt _ (by decide))

/-- The escape of a code point holds no line break. -/
theorem ne_break_of_mem_escapeCode {code : Nat} {c : Char} (hmem : c ∈ escapeCode code) :
    c ≠ '\r' ∧ c ≠ '\n' := by
  unfold escapeCode at hmem
  split at hmem
  · simp only [List.mem_cons] at hmem
    rcases hmem with rfl | rfl | hmem
    · decide
    · decide
    · exact ne_break_of_mem_hexDigits hmem
  · split at hmem
    all_goals
      simp only [List.mem_cons] at hmem
      rcases hmem with rfl | rfl | hmem
      · decide
      · decide
      · exact ne_break_of_mem_hexDigits hmem

/-- A character that is shown between quotation marks shows no line break. -/
theorem ne_break_of_mem_escapeChar {mark c shown : Char} (hmark : mark ≠ '\r' ∧ mark ≠ '\n')
    (hmem : shown ∈ escapeChar mark c) : shown ≠ '\r' ∧ shown ≠ '\n' := by
  unfold escapeChar at hmem
  split at hmem
  · rename_i hsame
    simp only [List.mem_cons, List.not_mem_nil, or_false] at hmem
    rcases hmem with rfl | rfl
    · decide
    · rcases hsame with rfl | rfl
      · decide
      · exact hmark
  · split at hmem
    · simp only [List.mem_cons, List.not_mem_nil, or_false] at hmem
      rcases hmem with rfl | rfl <;> decide
    · split at hmem
      · simp only [List.mem_cons, List.not_mem_nil, or_false] at hmem
        rcases hmem with rfl | rfl <;> decide
      · rename_i hfeed
        split at hmem
        · simp only [List.mem_cons, List.not_mem_nil, or_false] at hmem
          rcases hmem with rfl | rfl <;> decide
        · rename_i hreturn
          split at hmem
          · rw [List.mem_singleton.mp hmem]
            exact ⟨hreturn, hfeed⟩
          · exact ne_break_of_mem_escapeCode hmem

/-- Quoted octets hold no line break. -/
@[simp] theorem oneLine_quoteBytes (bytes : Bytes) : OneLine (quoteBytes bytes) := by
  have hmark : ∀ single double,
      quoteMark single double ≠ '\r' ∧ quoteMark single double ≠ '\n' := by
    decide
  intro c hc
  simp only [quoteBytes, String.toList_ofList, List.mem_cons, List.mem_append, List.mem_flatMap,
    List.not_mem_nil, or_false] at hc
  rcases hc with rfl | rfl | ⟨octet, -, hc⟩ | rfl
  · decide
  · exact hmark _ _
  · unfold escapeOctet at hc
    split at hc
    · exact ne_break_of_mem_escapeChar (hmark _ _) hc
    · exact ne_break_of_mem_escapeCode hc
  · exact hmark _ _

end Text

open Text

/-! ## The wording of failures -/

/-- The name of a numeral's place holds no line break. -/
@[simp] theorem NumberField.oneLine_label (field : NumberField) : OneLine field.label := by
  cases field <;> decide

/-- The wording of a cause holds no line break. -/
theorem Fault.oneLine_message (fault : Fault) : OneLine fault.message := by
  -- The equations of `message` are too large to be generated, hence `delta`.
  delta Fault.message
  cases fault <;> dsimp only <;>
    simp only [oneLine_append, oneLine_nat, oneLine_int, oneLine_quoteBytes,
      NumberField.oneLine_label, and_true] <;>
    decide +kernel

/-- The position of a failure in words holds no line break. -/
theorem DecodeError.oneLine_pathText (path : List Nat) : OneLine (pathText path) := by
  induction path with
  | nil => decide +kernel
  | cons index path ih =>
      rw [pathText, oneLine_append]
      refine ⟨?_, ih⟩
      simp only [oneLine_append, oneLine_nat, and_true]
      decide +kernel

/-- The wording of a failed decoding holds no line break. -/
theorem DecodeError.oneLine_message (error : DecodeError) : OneLine error.message := by
  unfold DecodeError.message
  split
  · exact Fault.oneLine_message _
  · rw [oneLine_append]
    exact ⟨oneLine_pathText _, Fault.oneLine_message _⟩

/-- The wording of the refusal of a request holds no line break. -/
theorem CommandError.oneLine_message (error : CommandError) : OneLine error.message := by
  delta CommandError.message
  cases error with
  | notArray kind => cases kind <;> decide +kernel
  | empty => decide +kernel
  | badArgument index =>
      dsimp only
      simp only [oneLine_append, oneLine_nat, and_true]
      decide +kernel

end DurableStore
