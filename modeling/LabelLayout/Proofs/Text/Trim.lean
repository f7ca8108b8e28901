import LabelLayout.Proofs.Json.Spelled
import LabelLayout.Text.Blank
import Mathlib.Data.List.DropRight

/-!
# `LabelLayout.Proofs.Text.Trim`: trimmed texts and texts cut in two

A trimmed text has no blanks at its ends, so that trimming it once more changes nothing
(`trim_trim`). Where a text of code points is cut at a character that is a code point by
itself, both sides are texts of code points (`IsSpelled.split`). Blanks are such characters,
so trimming leaves a text of code points (`IsSpelled.trim`).
-/

set_option autoImplicit false

namespace LabelLayout.Text

/-- Trimming drops blanks in front and then blanks behind. -/
theorem trim_eq (cs : List Char) : trim cs = (cs.dropWhile isBlank).rdropWhile isBlank := rfl

/-- A blank lies in a range of blanks. -/
theorem exists_range_of_isBlank {c : Char} (h : isBlank c = true) :
    ∃ blank ∈ blankRanges, blank.1 ≤ c.toNat ∧ c.toNat ≤ blank.2 := by
  simpa [isBlank] using h

/-- A trimmed text is trimmed already. -/
theorem trim_trim (cs : List Char) : trim (trim cs) = trim cs := by
  have hfront : (trim cs).dropWhile isBlank = trim cs := by
    rw [List.dropWhile_eq_self_iff]
    intro hpos
    -- What is in front of the trimmed text was in front when the blanks there were gone.
    have hinit : trim cs <+: cs.dropWhile isBlank := List.rdropWhile_prefix isBlank _
    rw [hinit.getElem hpos]
    exact List.dropWhile_eq_self_iff.mp (List.dropWhile_idempotent isBlank cs)
      (Nat.lt_of_lt_of_le hpos hinit.length_le)
  rw [trim_eq (trim cs), hfront, trim_eq, List.rdropWhile_idempotent]

/-- A text is trimmed when no blank is first or last in it. -/
theorem trim_eq_self_iff {cs : List Char} : trim cs = cs ↔
    (∀ c, cs.head? = some c → isBlank c = false) ∧
      ∀ c, cs.getLast? = some c → isBlank c = false := by
  constructor
  · intro h
    -- What is left of a text behind its front blanks is all of it, if trimming leaves all.
    have hfront : cs.dropWhile isBlank = cs := by
      have hinit : trim cs <+: cs.dropWhile isBlank := List.rdropWhile_prefix isBlank _
      have hback : cs.dropWhile isBlank <:+ cs := List.dropWhile_suffix isBlank
      have hlength := hinit.length_le
      rw [h] at hlength
      exact hback.eq_of_length_le hlength
    have hend : cs.rdropWhile isBlank = cs := by
      rwa [trim_eq, hfront] at h
    constructor
    · intro c hc
      obtain ⟨rest, rfl⟩ := List.head?_eq_some_iff.mp hc
      simpa using List.dropWhile_eq_self_iff.mp hfront (Nat.succ_pos _)
    · intro c hc
      obtain ⟨init, rfl⟩ := List.getLast?_eq_some_iff.mp hc
      simpa using List.rdropWhile_eq_self_iff.mp hend (by simp)
  · rintro ⟨hhead, hlast⟩
    have hfront : cs.dropWhile isBlank = cs := by
      cases cs with
      | nil => rfl
      | cons c rest => rw [List.dropWhile_cons, if_neg (by simp [hhead c rfl])]
    rw [trim_eq, hfront, List.rdropWhile_eq_self_iff]
    intro hne
    simp [hlast _ (List.getLast?_eq_some_getLast hne)]

/-- A text without blanks is trimmed already. -/
theorem trim_eq_self {cs : List Char} (h : ∀ c ∈ cs, isBlank c = false) : trim cs = cs := by
  rw [trim_eq_self_iff]
  exact ⟨fun c hc => h c (List.mem_of_head? hc), fun c hc => h c (List.mem_of_getLast? hc)⟩

/-! ### Characters that stay -/

theorem mem_of_mem_trim {c : Char} {cs : List Char} (h : c ∈ trim cs) : c ∈ cs := by
  have hinit : trim cs <+: cs.dropWhile isBlank := List.rdropWhile_prefix isBlank _
  exact (List.dropWhile_suffix isBlank).subset (hinit.subset h)

theorem mem_dropWhile_isBlank {c : Char} {cs : List Char} (hc : isBlank c = false)
    (h : c ∈ cs) : c ∈ cs.dropWhile isBlank := by
  rw [← List.takeWhile_append_dropWhile (p := isBlank) (l := cs), List.mem_append] at h
  rcases h with h | h
  · rw [List.mem_takeWhile_imp h] at hc
    cases hc
  · exact h

/-- Trimming keeps every character that is no blank. -/
theorem mem_trim_of_mem {c : Char} {cs : List Char} (hc : isBlank c = false) (h : c ∈ cs) :
    c ∈ trim cs := by
  unfold trim
  rw [List.mem_reverse]
  exact mem_dropWhile_isBlank hc (List.mem_reverse.mpr (mem_dropWhile_isBlank hc h))

/-! ### Texts of code points -/

/-- Texts with the same code points are the same. -/
theorem IsSpelled.eq_of_codePoints_eq {cs ds : List Char} (hcs : IsSpelled cs)
    (hds : IsSpelled ds) (h : codePoints cs = codePoints ds) : cs = ds := by
  obtain ⟨codes, hcodes, rfl⟩ := hcs
  obtain ⟨more, hmore, rfl⟩ := hds
  rw [codePoints_flatMap_spell hcodes, codePoints_flatMap_spell hmore] at h
  rw [h]

/-- A code point is one character, or two of which none is a code point by itself. -/
theorem spell_cases (code : Nat) :
    (∃ c, spell code = [c]) ∨
      ∃ c d : Char, spell code = [c, d] ∧ 0x100000 ≤ c.toNat ∧ 0x100000 ≤ d.toNat := by
  have hmark : 0x100000 ≤ mark.toNat := by rw [toNat_mark]; decide
  unfold spell
  split
  · next hsurrogate =>
    simp only [isSurrogate, isHighSurrogate, isLowSurrogate, Bool.or_eq_true, Bool.and_eq_true,
      decide_eq_true_eq] at hsurrogate
    refine .inr ⟨_, _, rfl, hmark, ?_⟩
    rw [toNat_ofNat (.inr ⟨by simp only [markedOffset]; omega, by simp only [markedOffset]; omega⟩)]
    simp only [markedOffset]
    omega
  · split
    · exact .inr ⟨_, _, rfl, hmark, hmark⟩
    · exact .inl ⟨_, rfl⟩

/-- A text that is cut at a character which is a code point by itself. -/
theorem IsSpelled.split {cs ds : List Char} {c : Char} (hc : c.toNat < 0x100000)
    (h : IsSpelled (cs ++ c :: ds)) : IsSpelled cs ∧ IsSpelled ds := by
  obtain ⟨codes, hcodes, heq⟩ := h
  -- By induction on the code points, the first of which is part of one side.
  induction codes generalizing cs with
  | nil => simp at heq
  | cons code codes ih =>
    have hfirst := isSpelled_spell (hcodes code List.mem_cons_self)
    have hrest := fun n hn => hcodes n (List.mem_cons_of_mem _ hn)
    rw [List.flatMap_cons] at heq
    rcases spell_cases code with ⟨d, hspell⟩ | ⟨d, e, hspell, hd, he⟩
    · rw [hspell] at hfirst
      rw [hspell, List.singleton_append] at heq
      cases cs with
      | nil =>
        cases heq
        exact ⟨isSpelled_nil, codes, hrest, rfl⟩
      | cons x cs =>
        rw [List.cons_append, List.cons.injEq] at heq
        obtain ⟨rfl, heq⟩ := heq
        obtain ⟨hcs, hds⟩ := ih hrest heq
        exact ⟨hfirst.append hcs, hds⟩
    · rw [hspell] at hfirst heq
      match cs with
      | [] =>
        rw [List.nil_append, List.cons_append, List.cons.injEq] at heq
        rw [heq.1] at hc
        omega
      | [x] =>
        simp only [List.cons_append, List.nil_append, List.cons.injEq] at heq
        rw [heq.2.1] at hc
        omega
      | x :: y :: cs =>
        simp only [List.cons_append, List.nil_append, List.cons.injEq] at heq
        obtain ⟨rfl, rfl, heq⟩ := heq
        obtain ⟨hcs, hds⟩ := ih hrest heq
        exact ⟨hfirst.append hcs, hds⟩

/-- A blank is a code point by itself. -/
theorem toNat_lt_of_isBlank {c : Char} (h : isBlank c = true) : c.toNat < 0x100000 := by
  obtain ⟨blank, hblank, -, hlast⟩ := exists_range_of_isBlank h
  have hranges : ∀ blank ∈ blankRanges, blank.2 < 0x100000 := by decide +kernel
  exact Nat.lt_of_le_of_lt hlast (hranges blank hblank)

theorem IsSpelled.dropWhile_isBlank {cs : List Char} (h : IsSpelled cs) :
    IsSpelled (cs.dropWhile isBlank) := by
  induction cs with
  | nil => exact h
  | cons c cs ih =>
    rw [List.dropWhile_cons]
    split
    · next hc =>
      have hfront : IsSpelled ([] ++ c :: cs) := h
      exact ih (hfront.split (toNat_lt_of_isBlank hc)).2
    · exact h

theorem IsSpelled.rdropWhile_isBlank {cs : List Char} (h : IsSpelled cs) :
    IsSpelled (cs.rdropWhile isBlank) := by
  induction cs using List.reverseRecOn with
  | nil => exact h
  | append_singleton cs c ih =>
    rw [List.rdropWhile_concat]
    split
    · next hc =>
      have hback : IsSpelled (cs ++ c :: []) := h
      exact ih (hback.split (toNat_lt_of_isBlank hc)).1
    · exact h

/-- A trimmed text of code points is one. -/
theorem IsSpelled.trim {cs : List Char} (h : IsSpelled cs) : IsSpelled (trim cs) :=
  h.dropWhile_isBlank.rdropWhile_isBlank

end LabelLayout.Text
