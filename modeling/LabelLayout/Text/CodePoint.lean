/-!
# `LabelLayout.Text.CodePoint`: code points spelled in characters

A text is a sequence of code points, and one of them may be half of a surrogate
pair that stands without its other half. No character has such a code. It is
spelled with two: a mark, the last character of all, and a character that says
which half it is. The mark itself is spelled twice, and every other code is its
own character.

`codePoints_flatMap_spell` says that the code points are read back whatever they
are, so texts are equal exactly when their code points are.
`codePoints_of_notMem` says that a text without the mark is made of its
characters.
-/

set_option autoImplicit false

namespace LabelLayout.Text

/-- Whether a code is the first half of a surrogate pair. -/
def isHighSurrogate (code : Nat) : Bool := 0xd800 ≤ code && code < 0xdc00

/-- Whether a code is the second half of a surrogate pair. -/
def isLowSurrogate (code : Nat) : Bool := 0xdc00 ≤ code && code < 0xe000

/-- Whether a code is half of a surrogate pair. -/
def isSurrogate (code : Nat) : Bool := isHighSurrogate code || isLowSurrogate code

/-- The code that a surrogate pair stands for. -/
def codeOfPair (high low : Nat) : Nat :=
  0x10000 + (high - 0xd800) * 0x400 + (low - 0xdc00)

/-- The character in front of a surrogate. -/
def mark : Char := Char.ofNat 0x10ffff

/-- How far the character behind the mark lies behind the surrogate it says. -/
def markedOffset : Nat := 0x100000

/-- The characters of a code point. -/
def spell (code : Nat) : List Char :=
  if isSurrogate code then [mark, Char.ofNat (markedOffset + code)]
  else if code = 0x10ffff then [mark, mark]
  else [Char.ofNat code]

/-- Characters as a text, each being one code point. -/
def ofChars (cs : List Char) : List Char := cs.flatMap fun c => spell c.toNat

/-- The code points of a text. -/
def codePoints : List Char → List Nat
  | [] => []
  | [c] => [c.toNat]
  | c :: d :: rest =>
    if c = mark then (if d = mark then c.toNat else d.toNat - markedOffset) :: codePoints rest
    else c.toNat :: codePoints (d :: rest)

/-- The characters of the first code point of a text. -/
def firstPoint : List Char → List Char
  | [] => []
  | c :: rest => if c = mark then c :: rest.take 1 else [c]

/-- The first code points of a text, so many of them. -/
def takePoints (n : Nat) (cs : List Char) : List Char := ((codePoints cs).take n).flatMap spell

/-- A valid code is the code of its character. -/
theorem toNat_ofNat {code : Nat} (h : code.isValidChar) : (Char.ofNat code).toNat = code := by
  rw [Char.ofNat, dif_pos h]
  rfl

/-- The code of the mark. -/
theorem toNat_mark : mark.toNat = 0x10ffff := toNat_ofNat (.inr ⟨by decide, by decide⟩)

/-- The mark spelled twice is one code point. -/
theorem codePoints_mark_mark (rest : List Char) :
    codePoints (mark :: mark :: rest) = 0x10ffff :: codePoints rest := by
  rw [codePoints, if_pos rfl, if_pos rfl, toNat_mark]

/-- The mark and another character are one code point. -/
theorem codePoints_mark_cons {d : Char} (h : d ≠ mark) (rest : List Char) :
    codePoints (mark :: d :: rest) = (d.toNat - markedOffset) :: codePoints rest := by
  rw [codePoints, if_pos rfl, if_neg h]

/-- Any other character is one code point. -/
theorem codePoints_cons {c : Char} (h : c ≠ mark) (rest : List Char) :
    codePoints (c :: rest) = c.toNat :: codePoints rest := by
  cases rest with
  | nil => rfl
  | cons d rest => rw [codePoints, if_neg h]

/-- A character that does not have the code of the mark is not the mark. -/
theorem ne_mark {c : Char} (h : c.toNat ≠ 0x10ffff) : c ≠ mark := by
  rintro rfl
  exact h toNat_mark

/-- A code point at the front of a text is read back. -/
theorem codePoints_spell_append {code : Nat} (hcode : code < 0x110000) (rest : List Char) :
    codePoints (spell code ++ rest) = code :: codePoints rest := by
  cases h : isSurrogate code with
  | true =>
    have hrange : 0xd800 ≤ code ∧ code < 0xe000 := by
      simp only [isSurrogate, isHighSurrogate, isLowSurrogate, Bool.or_eq_true, Bool.and_eq_true,
        decide_eq_true_eq] at h
      omega
    have hnat : (Char.ofNat (markedOffset + code)).toNat = markedOffset + code :=
      toNat_ofNat (.inr ⟨by simp only [markedOffset]; omega, by simp only [markedOffset]; omega⟩)
    have hne : Char.ofNat (markedOffset + code) ≠ mark :=
      ne_mark (by rw [hnat]; simp only [markedOffset]; omega)
    rw [spell, if_pos h]
    simp only [List.cons_append, List.nil_append]
    rw [codePoints_mark_cons hne, hnat, Nat.add_sub_cancel_left]
  | false =>
    have hrange : ¬ (0xd800 ≤ code ∧ code < 0xe000) := by
      simp only [isSurrogate, isHighSurrogate, isLowSurrogate, Bool.or_eq_false_iff,
        Bool.and_eq_false_iff, decide_eq_false_iff_not] at h
      omega
    rw [spell, if_neg (by simp [h])]
    by_cases hmark : code = 0x10ffff
    · rw [if_pos hmark, hmark]
      exact codePoints_mark_mark rest
    · have hnat : (Char.ofNat code).toNat = code :=
        toNat_ofNat (by simp only [Nat.isValidChar]; omega)
      rw [if_neg hmark, List.cons_append, List.nil_append,
        codePoints_cons (ne_mark (by rwa [hnat])), hnat]

/-- The code points of a text are those that it was spelled from. -/
theorem codePoints_flatMap_spell {codes : List Nat} (h : ∀ code ∈ codes, code < 0x110000) :
    codePoints (codes.flatMap spell) = codes := by
  induction codes with
  | nil => rfl
  | cons code rest ih =>
    rw [List.flatMap_cons, codePoints_spell_append (h code (by simp)),
      ih fun c hc => h c (by simp [hc])]

/-- The code points of a text without the mark are the codes of its characters. -/
theorem codePoints_of_notMem {cs : List Char} (h : mark ∉ cs) :
    codePoints cs = cs.map Char.toNat := by
  induction cs with
  | nil => rfl
  | cons c rest ih =>
    simp only [List.mem_cons, not_or] at h
    rw [codePoints_cons (Ne.symm h.1), ih h.2, List.map_cons]

end LabelLayout.Text
