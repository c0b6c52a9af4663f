import DurableStore.Proofs.Text.Lines
import DurableStore.Proofs.Text.Validity
import DurableStore.Text.HostText

/-!
# Octets and texts of the host application

Octets that are read as a text are written back as they were, so that a text which octets
are read as is known by its octets.  A text can be written exactly if all its surrogates
stand for octets; a line break in its octets is one in the text.

Main results:

- Theorem `Text.write_eq_ok`: which texts can be written.
- Theorem `Text.write_read`: octets that are read as a text are written back.
- Definition `Text.IsRead` and theorem `Text.isRead_iff`: the texts that octets are read as.
- Theorem `Text.isLine_write`: where a line break in the octets of a text comes from.
-/

namespace DurableStore

namespace Text

/-! ## Texts that can be written -/

/-- A text can be written exactly if all its surrogates stand for octets. -/
theorem unwritableFrom_eq_none {position : Nat} {text : HostText} :
    unwritableFrom? position text = none ↔
      ∀ index, .surrogate index ∈ text → CodePoint.isEscape index = true := by
  induction text generalizing position with
  | nil => simp [unwritableFrom?]
  | cons point rest ih =>
      cases point with
      | char c => simp [unwritableFrom?, ih]
      | surrogate first =>
          rw [unwritableFrom?]
          split
          · rename_i hescape
            rw [ih]
            constructor
            · intro hrest index hmem
              rcases List.mem_cons.mp hmem with hfirst | hlater
              · rw [CodePoint.surrogate.inj hfirst]
                exact hescape
              · exact hrest index hlater
            · intro hall index hmem
              exact hall index (List.mem_cons_of_mem _ hmem)
          · rename_i hother
            simp only [reduceCtorEq, false_iff]
            exact fun hall => hother (hall first List.mem_cons_self)

/-- Writing a text gives the octets of its code points. -/
theorem write_eq_ok {text : HostText} {octets : Bytes} :
    write text = .ok octets ↔
      (∀ index, .surrogate index ∈ text → CodePoint.isEscape index = true) ∧
        text.flatMap CodePoint.octets = octets := by
  rw [← @unwritableFrom_eq_none 0 text, write]
  cases unwritableFrom? 0 text <;> simp

/-- Writing a text fails exactly if it holds a surrogate that stands for no octet. -/
theorem write_eq_error {text : HostText} :
    (∃ run, write text = .error run) ↔
      ∃ index, .surrogate index ∈ text ∧ CodePoint.isEscape index = false := by
  have hfails : (∃ run, write text = .error run) ↔ ¬ unwritableFrom? 0 text = none := by
    rw [write]
    cases unwritableFrom? 0 text <;> simp
  rw [hfails, unwritableFrom_eq_none]
  simp

/-! ## Texts that octets are read as -/

/-- The first octet of a text that begins with no character is not one of ASCII. -/
theorem le_of_leadingChar {octet : UInt8} {rest : Bytes}
    (hstray : leadingChar? (octet :: rest) = none) : 0x80 ≤ octet.toNat := by
  refine Nat.not_lt.mp fun hascii => ?_
  have hcode : (Char.ofNat octet.toNat).toNat = octet.toNat := by
    have hvalid : octet.toNat.isValidChar := .inl (by omega)
    rw [Char.ofNat, dif_pos hvalid]
    rfl
  have hform : String.utf8EncodeChar (Char.ofNat octet.toNat) = [octet] := by
    rw [utf8_ascii (hcode.symm ▸ hascii), hcode, UInt8.ofNat_toNat]
  have hleading := leadingChar_append (Char.ofNat octet.toNat) rest
  rw [hform, List.singleton_append, hstray] at hleading
  cases hleading

/-- No stray octet of a text is one of ASCII. -/
theorem le_of_stray_mem {text : Bytes} {octet : UInt8} (hmem : .stray octet ∈ glyphs text) :
    0x80 ≤ octet.toNat := by
  induction hlength : text.length using Nat.strongRecOn generalizing text with
  | ind length ih =>
      cases text with
      | nil => cases hmem
      | cons first rest =>
          cases hleading : leadingChar? (first :: rest) with
          | none =>
              rw [glyphs_stray hleading] at hmem
              rcases List.mem_cons.mp hmem with hfirst | hlater
              · rw [Glyph.stray.inj hfirst]
                exact le_of_leadingChar hleading
              · refine ih rest.length ?_ hlater rfl
                rw [← hlength, List.length_cons]
                exact Nat.lt_succ_self _
          | some c =>
              obtain ⟨more, htext⟩ := exists_of_leadingChar hleading
              rw [htext, glyphs_char] at hmem
              have hlater : .stray octet ∈ glyphs more := by simpa using hmem
              refine ih more.length ?_ hlater rfl
              have hform : 0 < (String.utf8EncodeChar c).length :=
                List.length_pos_iff.mpr String.utf8EncodeChar_ne_nil
              rw [← hlength, htext, List.length_append]
              omega

/-- A code point that is read has the octets of its glyph. -/
theorem octets_ofGlyph (glyph : Glyph) : (CodePoint.ofGlyph glyph).octets = glyph.bytes := by
  cases glyph with
  | char c => rfl
  | stray octet => simp [CodePoint.ofGlyph, CodePoint.octets, CodePoint.escape, Glyph.bytes]

/-- Octets that are read as a text are written back. -/
theorem write_read (octets : Bytes) : write (read octets) = .ok octets := by
  refine write_eq_ok.mpr ⟨?_, ?_⟩
  · intro index hmem
    obtain ⟨glyph, hglyph, hsame⟩ := List.mem_map.mp hmem
    cases glyph with
    | char c => cases hsame
    | stray octet =>
        have hlow := le_of_stray_mem hglyph
        have hhigh := octet.toNat_lt
        obtain rfl := CodePoint.surrogate.inj hsame
        have hlow' : 0x480 ≤ (CodePoint.escape octet).val := Nat.add_le_add_left hlow 0x400
        have hhigh' : (CodePoint.escape octet).val < 0x500 := Nat.add_lt_add_left hhigh 0x400
        simp [CodePoint.isEscape, hlow', hhigh']
  · rw [read, List.flatMap_map]
    simp only [octets_ofGlyph]
    exact flatMap_glyphs octets

/-- A text is one that some octets are read as. -/
def IsRead (text : HostText) : Prop :=
  ∃ octets, read octets = text

/-- Such a text is what its own octets are read as. -/
theorem isRead_iff {text : HostText} {octets : Bytes} (hwrite : write text = .ok octets) :
    IsRead text ↔ read octets = text := by
  constructor
  · rintro ⟨others, rfl⟩
    rw [write_read] at hwrite
    rw [Except.ok.inj hwrite]
  · intro hread
    exact ⟨octets, hread⟩

/-! ## Line breaks -/

/-- The octets of a text are a line exactly if the text holds no line break. -/
theorem isLine_write {text : HostText} {octets : Bytes} (hwrite : write text = .ok octets) :
    Value.isLine octets = true ↔ .char '\r' ∉ text ∧ .char '\n' ∉ text := by
  obtain ⟨hescapes, rfl⟩ := write_eq_ok.mp hwrite
  rw [Value.isLine, List.all_eq_true]
  constructor
  · intro hline
    constructor
    · intro hreturn
      have hoctet := hline 0x0D (List.mem_flatMap.mpr ⟨_, hreturn, by decide⟩)
      cases hoctet
    · intro hfeed
      have hoctet := hline 0x0A (List.mem_flatMap.mpr ⟨_, hfeed, by decide⟩)
      cases hoctet
  · rintro ⟨hreturn, hfeed⟩ octet hmem
    obtain ⟨point, hpoint, hoctet⟩ := List.mem_flatMap.mp hmem
    rw [Bool.and_eq_true, bne_iff_ne, bne_iff_ne]
    cases point with
    | char c =>
        apply ne_break_of_mem_utf8 _ hoctet
        constructor
        · rintro rfl
          exact hreturn hpoint
        · rintro rfl
          exact hfeed hpoint
    | surrogate index =>
        -- The octets that surrogates stand for are not of ASCII.
        have hescape := hescapes index hpoint
        simp only [CodePoint.isEscape, Bool.and_eq_true, decide_eq_true_eq] at hescape
        have hnumber : octet.toNat = index.val - 0x400 := by
          rw [List.mem_singleton.mp hoctet, UInt8.toNat_ofNat']
          omega
        constructor
        · rintro rfl
          have hsame : 13 = index.val - 0x400 := hnumber
          omega
        · rintro rfl
          have hsame : 10 = index.val - 0x400 := hnumber
          omega

end Text

end DurableStore
