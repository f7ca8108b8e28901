import LabelLayout.Json.Printer
import LabelLayout.Json.Reader

/-!
# `LabelLayout.Proofs.Json.Text`: texts survive the JSON text

A text between quotes is read as the text that was written, whatever characters it
has (`readText_escaped`). The writer escapes the quote, the backslash and the
controls below U+0020; none of these codes is half of a surrogate pair, so the
reader never joins two of the writer's escapes.
-/

set_option autoImplicit false

namespace LabelLayout.Json

/-- Whether a character is written behind a backslash. -/
def isEscaped (c : Char) : Prop := c = '"' ∨ c = '\\' ∨ c.toNat < 0x20

instance (c : Char) : Decidable (isEscaped c) := inferInstanceAs (Decidable (_ ∨ _ ∨ _))

/-- What a character is written with. -/
def glyphOf (c : Char) : Glyph := if isEscaped c then .escaped c.toNat else .plain c

theorem lt_of_isEscaped {c : Char} (h : isEscaped c) : c.toNat < 0x80 := by
  rcases h with rfl | rfl | h
  · decide
  · decide
  · omega

/-- A control is four hexadecimal digits that read as its code. -/
theorem fourHex_hex : ∀ n < 0x20, ∃ a b c d, Text.hex 4 n = [a, b, c, d] ∧
    fourHex? a b c d = some n := by
  -- A control fills the last two of the four.
  have h : ∀ n < 0x20,
      Text.hex 4 n = ['0', '0', Nat.digitChar (n / 16), Nat.digitChar (n % 16)] ∧
        fourHex? '0' '0' (Nat.digitChar (n / 16)) (Nat.digitChar (n % 16)) = some n := by decide
  exact fun n hn => ⟨_, _, _, _, h n hn⟩

/-- A character that is not escaped is read as it stands. -/
theorem readGlyphs_plain {c : Char} (h : ¬ isEscaped c) (cs : List Char) :
    readGlyphs (c :: cs)
      = (readGlyphs cs).map fun (glyphs, rest) => (.plain c :: glyphs, rest) := by
  simp only [isEscaped, not_or] at h
  obtain ⟨hquote, hslash, hlow⟩ := h
  have hno : ¬ (c.toNat < 0x20 ∨ c = '\\') := by
    rintro (hc | hc)
    · exact hlow hc
    · exact hslash hc
  rw [readGlyphs.eq_def]
  split
  · next heq => exact absurd heq (List.cons_ne_nil _ _)
  · next heq => exact absurd (List.cons.inj heq).1 hquote
  · next heq => exact absurd (List.cons.inj heq).1 hslash
  · next heq => exact absurd (List.cons.inj heq).1 hslash
  · next heq =>
    cases heq
    rw [if_neg hno]
    cases readGlyphs cs <;> rfl

/-- One written character is one glyph. -/
theorem readGlyphs_escapeChar (c : Char) (cs : List Char) :
    readGlyphs (escapeChar c ++ cs)
      = (readGlyphs cs).map fun (glyphs, rest) => (glyphOf c :: glyphs, rest) := by
  -- The escapes with a letter of their own come first, then the other controls.
  by_cases hshort : c ∈ ['"', '\\', '\n', '\r', '\t', '\x08', '\x0c']
  · simp only [List.mem_cons, List.not_mem_nil, or_false] at hshort
    rcases hshort with rfl | rfl | rfl | rfl | rfl | rfl | rfl <;>
      cases h : readGlyphs cs <;> simp [escapeChar, readGlyphs, simpleEscape?, h, glyphOf] <;>
      decide
  simp only [List.mem_cons, List.not_mem_nil, or_false, not_or] at hshort
  obtain ⟨hquote, hslash, hn, hr, ht, hb, hf⟩ := hshort
  rw [escapeChar, if_neg hquote, if_neg hslash, if_neg hn, if_neg hr, if_neg ht, if_neg hb,
    if_neg hf]
  by_cases hlow : c.toNat < 0x20
  · obtain ⟨x, y, z, w, hhex, hcode⟩ := fourHex_hex c.toNat hlow
    rw [if_pos hlow, hhex, glyphOf, if_pos (.inr (.inr hlow))]
    simp only [List.cons_append, List.nil_append, readGlyphs, hcode, Option.bind_eq_bind,
      Option.bind_some]
    cases readGlyphs cs <;> rfl
  · have hplain : ¬ isEscaped c := by
      rintro (h | h | h)
      · exact hquote h
      · exact hslash h
      · exact hlow h
    rw [if_neg hlow, glyphOf, if_neg hplain]
    exact readGlyphs_plain hplain cs

/-- A written text is one glyph for each character. -/
theorem readGlyphs_escaped (text rest : List Char) :
    readGlyphs (text.flatMap escapeChar ++ '"' :: rest) = some (text.map glyphOf, rest) := by
  induction text with
  | nil => rfl
  | cons c text ih =>
    rw [List.flatMap_cons, List.append_assoc, readGlyphs_escapeChar, ih]
    rfl

/-- The code of a character other than the mark is spelled with that character. -/
theorem spell_toNat {c : Char} (h : c ≠ Text.mark) : Text.spell c.toNat = [c] := by
  -- No character has the code of a surrogate.
  have hvalid : c.toNat < 0xd800 ∨ 0xdfff < c.toNat := c.valid.imp_right And.left
  have hsurrogate : Text.isSurrogate c.toNat = false := by
    simp only [Text.isSurrogate, Text.isHighSurrogate, Text.isLowSurrogate,
      Bool.or_eq_false_iff, Bool.and_eq_false_iff, decide_eq_false_iff_not]
    omega
  have hmark : c.toNat ≠ 0x10ffff := by
    intro hcode
    apply h
    rw [Text.mark, ← hcode, Char.ofNat_toNat]
  rw [Text.spell, hsurrogate, if_neg (by decide), if_neg hmark, Char.ofNat_toNat]

/-- An escape that is no first half of a pair stands for itself, whatever follows. -/
theorem textOf_escaped {code : Nat} (h : Text.isHighSurrogate code = false)
    (glyphs : List Glyph) :
    textOf (.escaped code :: glyphs) = Text.spell code ++ textOf glyphs := by
  match glyphs with
  | [] => rfl
  | .plain c :: rest => rfl
  | .escaped low :: rest => rw [textOf, h, Bool.false_and, if_neg (by decide)]

/-- The glyphs of a text are that text. -/
theorem textOf_map_glyphOf (text : List Char) : textOf (text.map glyphOf) = text := by
  induction text with
  | nil => rfl
  | cons c text ih =>
    rw [List.map_cons, glyphOf]
    by_cases hc : isEscaped c
    -- What is escaped is ASCII, so it is never joined with the escape behind it.
    · have hlow := lt_of_isEscaped hc
      have hhigh : Text.isHighSurrogate c.toNat = false := by
        simp only [Text.isHighSurrogate, Bool.and_eq_false_iff, decide_eq_false_iff_not]
        omega
      rw [if_pos hc, textOf_escaped hhigh, spell_toNat (Text.ne_mark (by omega)), ih]
      rfl
    · rw [if_neg hc, textOf, ih]

/-- A written text is read back, and what follows its closing quote is left. -/
theorem readText_escaped (text : String) (rest : List Char) :
    readText (text.toList.flatMap escapeChar ++ '"' :: rest) = some (text, rest) := by
  have htext : String.ofList (textOf (text.toList.map glyphOf)) = text := by
    rw [textOf_map_glyphOf, String.ofList_toList]
  rw [readText, readGlyphs_escaped]
  exact congrArg (fun t => some (t, rest)) htext

end LabelLayout.Json
