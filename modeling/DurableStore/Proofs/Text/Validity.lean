import DurableStore.Text.Utf8

/-!
# Valid texts

Reading a text as glyphs loses no octet, whether or not the text is valid UTF-8.  A text is
the UTF-8 form of a string exactly if none of its glyphs is a stray octet; then its glyphs
are the characters of the string.

Main results:

- Theorem `Text.flatMap_glyphs`: the glyphs of a text have the octets of the text.
- Theorem `Text.glyphs_ofString`: the glyphs of the UTF-8 form of a string are its
  characters.
- Definition `Text.HoldsStray` and theorem `Text.not_holdsStray_iff`: which texts are valid.
- Theorem `Text.validOctets_eq_ok`: which texts pass where they must be valid.
-/

namespace DurableStore

namespace Text

/-! ## Leading characters -/

/-- The UTF-8 form of a character of ASCII is its code. -/
theorem utf8_ascii {c : Char} (hascii : c.toNat < 0x80) :
    String.utf8EncodeChar c = [UInt8.ofNat c.toNat] := by
  have hsmall : c.val.toNat ≤ 0x7F := Nat.le_of_lt_succ hascii
  simp only [String.utf8EncodeChar, if_pos hsmall]
  rfl

/-- Octets that begin with the UTF-8 form of a character begin with the character. -/
theorem leadingChar_append (c : Char) (rest : Bytes) :
    leadingChar? (String.utf8EncodeChar c ++ rest) = some c := by
  have hsize : (String.utf8EncodeChar c).length ≤ 4 := by
    rw [String.length_utf8EncodeChar]
    exact c.utf8Size_le_four
  rw [leadingChar?, List.take_append, List.take_of_length_le hsize, List.toByteArray_append]
  exact ByteArray.utf8DecodeChar?_utf8EncodeChar_append

/-- Octets that begin with a character begin with its UTF-8 form. -/
theorem exists_of_leadingChar {text : Bytes} {c : Char} (hleading : leadingChar? text = some c) :
    ∃ rest, text = String.utf8EncodeChar c ++ rest := by
  obtain ⟨more, hmore⟩ := ByteArray.exists_of_utf8DecodeChar?_eq_some hleading
  have hfront : text.take 4 = String.utf8EncodeChar c ++ more.data.toList := by
    have hlist := congrArg (fun array => array.data.toList) hmore
    simpa using hlist
  refine ⟨more.data.toList ++ text.drop 4, ?_⟩
  rw [← List.append_assoc, ← hfront, List.take_append_drop]

/-! ## The glyphs of a text -/

/-- The octets that belong to a glyph already read are passed over. -/
theorem glyphsAfter_append (used rest : Bytes) :
    glyphsAfter used.length (used ++ rest) = glyphs rest := by
  induction used with
  | nil => rfl
  | cons octet used ih => exact ih

/-- A text that begins with the UTF-8 form of a character has the character as its first
glyph. -/
theorem glyphs_char (c : Char) (rest : Bytes) :
    glyphs (String.utf8EncodeChar c ++ rest) = .char c :: glyphs rest := by
  have hleading := leadingChar_append c rest
  have hsize := String.length_utf8EncodeChar c
  cases hform : String.utf8EncodeChar c with
  | nil => exact absurd hform String.utf8EncodeChar_ne_nil
  | cons octet used =>
      rw [hform] at hleading hsize
      have hused : c.utf8Size - 1 = used.length := by
        rw [← hsize, List.length_cons, Nat.add_sub_cancel]
      rw [List.cons_append] at hleading ⊢
      rw [glyphs, glyphsAfter, hleading]
      simp only [hused, glyphsAfter_append]

/-- A text that begins with no character has its first octet as a stray glyph. -/
theorem glyphs_stray {octet : UInt8} {rest : Bytes}
    (hstray : leadingChar? (octet :: rest) = none) :
    glyphs (octet :: rest) = .stray octet :: glyphs rest := by
  rw [glyphs, glyphsAfter, hstray]
  rfl

/-- The glyphs of a text have the octets of the text. -/
theorem flatMap_glyphs (text : Bytes) : (glyphs text).flatMap Glyph.bytes = text := by
  -- A glyph takes several octets at once, hence the induction on the length.
  induction hlength : text.length using Nat.strongRecOn generalizing text with
  | ind length ih =>
      cases text with
      | nil => rfl
      | cons octet rest =>
          cases hleading : leadingChar? (octet :: rest) with
          | none =>
              have hshorter : rest.length < length := by
                rw [← hlength, List.length_cons]
                exact Nat.lt_succ_self _
              rw [glyphs_stray hleading, List.flatMap_cons, ih _ hshorter rest rfl]
              rfl
          | some c =>
              obtain ⟨more, htext⟩ := exists_of_leadingChar hleading
              have hform : 0 < (String.utf8EncodeChar c).length :=
                List.length_pos_iff.mpr String.utf8EncodeChar_ne_nil
              have hshorter : more.length < length := by
                rw [← hlength, htext, List.length_append]
                omega
              rw [htext, glyphs_char, List.flatMap_cons, ih _ hshorter more rfl]
              rfl

/-- The glyphs of the UTF-8 form of a string are its characters. -/
theorem glyphs_ofString (s : String) : glyphs (Bytes.ofString s) = s.toList.map .char := by
  unfold Bytes.ofString
  induction s.toList with
  | nil => rfl
  | cons c rest ih => rw [List.flatMap_cons, glyphs_char, ih, List.map_cons]

/-! ## Stray octets -/

/-- A text holds an octet that belongs to no character. -/
def HoldsStray (text : Bytes) : Prop :=
  ∃ octet, .stray octet ∈ glyphs text

/-- Glyphs none of which is a stray octet are characters. -/
theorem not_mem_stray_iff {glyphs : List Glyph} :
    (∀ octet, .stray octet ∉ glyphs) ↔ ∃ chars : List Char, glyphs = chars.map .char := by
  constructor
  · intro hnone
    induction glyphs with
    | nil => exact ⟨[], rfl⟩
    | cons glyph rest ih =>
        obtain ⟨chars, rfl⟩ := ih fun octet hmem => hnone octet (List.mem_cons_of_mem _ hmem)
        cases glyph with
        | char c => exact ⟨c :: chars, rfl⟩
        | stray octet => exact absurd List.mem_cons_self (hnone octet)
  · rintro ⟨chars, rfl⟩ octet hmem
    obtain ⟨c, -, hsame⟩ := List.mem_map.mp hmem
    cases hsame

/-- A text holds no stray octet exactly if it is the UTF-8 form of a string. -/
theorem not_holdsStray_iff {text : Bytes} :
    ¬ HoldsStray text ↔ ∃ s : String, text = Bytes.ofString s := by
  rw [HoldsStray, not_exists, not_mem_stray_iff]
  constructor
  · rintro ⟨chars, hchars⟩
    refine ⟨String.ofList chars, ?_⟩
    calc text = (glyphs text).flatMap Glyph.bytes := (flatMap_glyphs text).symm
      _ = chars.flatMap String.utf8EncodeChar := by rw [hchars, List.flatMap_map]; rfl
      _ = Bytes.ofString (String.ofList chars) := by rw [Bytes.ofString, String.toList_ofList]
  · rintro ⟨s, rfl⟩
    exact ⟨s.toList, glyphs_ofString s⟩

/-- There is a first run of stray octets exactly if there is a stray octet. -/
theorem strayRunFrom_eq_none {position : Nat} {glyphs : List Glyph} :
    strayRunFrom? position glyphs = none ↔ ∀ octet, .stray octet ∉ glyphs := by
  induction glyphs generalizing position with
  | nil => simp [strayRunFrom?]
  | cons glyph rest ih =>
      cases glyph with
      | char c => simp [strayRunFrom?, ih]
      | stray octet =>
          simp only [strayRunFrom?, reduceCtorEq, false_iff]
          exact fun hnone => hnone octet List.mem_cons_self

/-- There is a first run of stray octets in a text exactly if the text holds a stray octet. -/
theorem strayRun_eq_none {text : Bytes} : strayRun? text = none ↔ ¬ HoldsStray text := by
  rw [strayRun?, strayRunFrom_eq_none, HoldsStray, not_exists]

/-- A text that must be valid is kept exactly if it is the UTF-8 form of a string. -/
theorem validOctets_eq_ok {text octets : Bytes} :
    validOctets text = .ok octets ↔ octets = text ∧ ∃ s : String, text = Bytes.ofString s := by
  rw [← not_holdsStray_iff, ← strayRun_eq_none, validOctets]
  cases strayRun? text <;> simp [eq_comm]

end Text

end DurableStore
