import LabelLayout.Proofs.Text.Trim
import LabelLayout.Text.Upper

/-!
# `LabelLayout.Proofs.Text.Upper`: upper-casing leaves blanks alone

Some characters have several characters for their upper-case form, but none has no form
(`upperChar_ne_nil`), and no form has a blank in it unless the character is a blank
(`isBlank_of_mem_upperChar`). So a text without blanks at its ends has none there when it is
upper-cased (`trim_upper`).
-/

set_option autoImplicit false

namespace LabelLayout.Text

variable {c d : Char} {cs : List Char}

/-- What holds of the first 128 characters holds of those with such a code. -/
theorem of_ascii {P : Char → Prop} (h : ∀ code < 0x80, P (Char.ofNat code))
    (hc : c.toNat < 0x80) : P c := by
  have hcode := h c.toNat hc
  rwa [Char.ofNat_toNat] at hcode

/-! ### Blanks among upper-case forms -/

/-- A blank that is given by its code has that code. -/
theorem toNat_of_isBlank_ofNat {code : Nat} (h : isBlank (Char.ofNat code) = true) :
    (Char.ofNat code).toNat = code := by
  by_cases hvalid : code.isValidChar
  · exact toNat_ofNat hvalid
  · -- A code of no character gives the first of all, which is no blank.
    rw [Char.ofNat, dif_neg hvalid] at h
    exact absurd h (by decide)

/-- No run of simple upper-case forms meets a range of blanks. -/
theorem caseRuns_apart : ∀ run ∈ caseRuns, 0 ≤ run.first + run.shift ∧
    ∀ blank ∈ blankRanges, run.last + run.shift < blank.1 ∨ blank.2 < run.first + run.shift := by
  decide +kernel

/-- A form of several characters has some, and no blank among them. -/
theorem longUpperForms_apart : ∀ form ∈ longUpperForms, form.2 ≠ [] ∧
    ∀ code ∈ form.2, ∀ blank ∈ blankRanges, code < blank.1 ∨ blank.2 < code := by
  decide +kernel

theorem mem_longUpperForms {code : Nat} {codes : List Nat}
    (h : longUpperForms.lookup code = some codes) : (code, codes) ∈ longUpperForms := by
  obtain ⟨before, after, hsplit, -⟩ := List.lookup_eq_some_iff.mp h
  rw [hsplit]
  exact List.mem_append_right _ List.mem_cons_self

/-- Every character has an upper-case form. -/
theorem upperChar_ne_nil (c : Char) : upperChar c ≠ [] := by
  unfold upperChar
  split
  · exact List.cons_ne_nil _ _
  · split
    · next codes hlong =>
      have hform := (longUpperForms_apart _ (mem_longUpperForms hlong)).1
      simpa using hform
    · split <;> exact List.cons_ne_nil _ _

/-- The upper-case form of a character has a blank in it only if the character is one. -/
theorem isBlank_of_mem_upperChar (hd : d ∈ upperChar c) (h : isBlank d = true) :
    isBlank c = true := by
  unfold upperChar at hd
  split at hd
  · next hascii =>
    have hupper : isBlank c.toUpper = true → isBlank c = true :=
      of_ascii (P := fun c => isBlank c.toUpper = true → isBlank c = true)
        (by decide +kernel) hascii
    rw [List.mem_singleton.mp hd] at h
    exact hupper h
  split at hd
  · next codes hlong =>
    obtain ⟨code, hcode, rfl⟩ := List.mem_map.mp hd
    obtain ⟨blank, hblank, hfirst, hlast⟩ := exists_range_of_isBlank h
    have hapart := (longUpperForms_apart _ (mem_longUpperForms hlong)).2 code hcode blank hblank
    rw [toNat_of_isBlank_ofNat h] at hfirst hlast
    omega
  split at hd
  · next run hrun =>
    rw [List.mem_singleton] at hd
    subst hd
    obtain ⟨blank, hblank, hfirst, hlast⟩ := exists_range_of_isBlank h
    obtain ⟨hpos, hruns⟩ := caseRuns_apart run (List.mem_of_find?_eq_some hrun)
    have hapart := hruns blank hblank
    have hcovers := List.find?_some hrun
    simp only [CaseRun.covers, Bool.and_eq_true, decide_eq_true_eq] at hcovers
    rw [toNat_of_isBlank_ofNat h] at hfirst hlast
    omega
  · rwa [List.mem_singleton.mp hd] at h

/-! ### Texts -/

/-- A trimmed text stays trimmed when it is upper-cased. -/
theorem trim_upper (h : trim cs = cs) : trim (upper cs) = upper cs := by
  obtain ⟨hhead, hlast⟩ := trim_eq_self_iff.mp h
  have hkeeps : ∀ c, isBlank c = false → ∀ d ∈ upperChar c, isBlank d = false := by
    intro c hc d hd
    rw [← Bool.not_eq_true] at hc ⊢
    exact fun hblank => hc (isBlank_of_mem_upperChar hd hblank)
  rw [trim_eq_self_iff]
  constructor
  · intro d hd
    cases cs with
    | nil => cases hd
    | cons c rest =>
      rw [upper, List.flatMap_cons, List.head?_append_of_ne_nil _ (upperChar_ne_nil c)] at hd
      exact hkeeps c (hhead c rfl) d (List.mem_of_head? hd)
  · intro d hd
    rcases List.eq_nil_or_concat cs with rfl | ⟨init, c, rfl⟩
    · cases hd
    · rw [List.concat_eq_append] at hd hlast
      rw [upper, List.flatMap_append, List.flatMap_singleton,
        List.getLast?_append_of_ne_nil _ (upperChar_ne_nil c)] at hd
      exact hkeeps c (hlast c List.getLast?_concat) d (List.mem_of_getLast? hd)

end LabelLayout.Text
