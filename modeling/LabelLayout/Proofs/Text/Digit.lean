import LabelLayout.Proofs.Text.Trim
import LabelLayout.Text.Digit

/-!
# `LabelLayout.Proofs.Text.Digit`: digits and their values

A decimal digit of any script has a value below ten (`decimalValue?_lt_ten`). Among the
characters from `0` to `9` it tells them apart (`eq_of_digitOf_eq`), among all digits it does
not: there is a digit eight in every script. No digit is blank, so a text of digits is
trimmed already (`trim_of_isDigit`).
-/

set_option autoImplicit false

namespace LabelLayout.Text

variable {c d : Char}

/-- A decimal digit passes the check for digits. -/
theorem isDigit_of_isSome (h : (decimalValue? c).isSome = true) : isDigit c = true := by
  rw [isDigit, h, Bool.true_or]

theorem decimalValue?_lt_ten {value : Nat} (h : decimalValue? c = some value) : value < 10 := by
  obtain ⟨start, hfind, rfl⟩ := Option.map_eq_some_iff.mp h
  have hcovers := List.find?_some hfind
  simp only [Bool.and_eq_true, decide_eq_true_eq] at hcovers
  omega

/-! ### Blanks -/

/-- The ranges of all digits, those of the scripts and those that are like digits. -/
def digitRanges : List (Nat × Nat) :=
  decimalZeros.map (fun start => (start, start + 9)) ++ digitLikeRanges

theorem exists_range_of_isDigit (h : isDigit c = true) :
    ∃ range ∈ digitRanges, range.1 ≤ c.toNat ∧ c.toNat ≤ range.2 := by
  rw [isDigit, Bool.or_eq_true] at h
  rcases h with h | h
  · obtain ⟨value, hvalue⟩ := Option.isSome_iff_exists.mp h
    obtain ⟨start, hfind, rfl⟩ := Option.map_eq_some_iff.mp hvalue
    have hcovers := List.find?_some hfind
    simp only [Bool.and_eq_true, decide_eq_true_eq] at hcovers
    have hmem := List.mem_map_of_mem (f := fun start => (start, start + 9))
      (List.mem_of_find?_eq_some hfind)
    exact ⟨_, List.mem_append_left _ hmem, hcovers.1, by omega⟩
  · obtain ⟨range, hrange, hcovers⟩ := List.any_eq_true.mp h
    simp only [Bool.and_eq_true, decide_eq_true_eq] at hcovers
    exact ⟨range, List.mem_append_right _ hrange, hcovers⟩

/-- No range of digits meets a range of blanks. -/
theorem digitRanges_apart : ∀ range ∈ digitRanges, ∀ blank ∈ blankRanges,
    range.2 < blank.1 ∨ blank.2 < range.1 := by
  decide +kernel

theorem isBlank_of_isDigit (h : isDigit c = true) : isBlank c = false := by
  obtain ⟨range, hrange, hfirst, hlast⟩ := exists_range_of_isDigit h
  rw [← Bool.not_eq_true]
  intro hblank
  obtain ⟨blank, hmem, hfrom, hto⟩ := exists_range_of_isBlank hblank
  have hapart := digitRanges_apart range hrange blank hmem
  omega

/-- A text of digits is trimmed already. -/
theorem trim_of_isDigit {cs : List Char} (h : ∀ c ∈ cs, isDigit c = true) : trim cs = cs :=
  trim_eq_self fun c hc => isBlank_of_isDigit (h c hc)

/-! ### Values -/

/-- The value of a decimal digit, and zero for any other character. -/
def digitOf (c : Char) : Nat := (decimalValue? c).getD 0

theorem digitOf_lt_ten (c : Char) : digitOf c < 10 := by
  rw [digitOf]
  cases h : decimalValue? c with
  | none => exact Nat.zero_lt_succ 9
  | some value => exact decimalValue?_lt_ten h

theorem toNat_of_ascii (h : c.isDigit = true) : 0x30 ≤ c.toNat ∧ c.toNat ≤ 0x39 := by
  simpa [Char.isDigit, UInt32.le_iff_toNat_le] using h

/-- The characters from `0` to `9` come first among the digits. -/
theorem decimalValue?_of_ascii (h : c.isDigit = true) :
    decimalValue? c = some (c.toNat - 0x30) := by
  obtain ⟨hfirst, hlast⟩ := toNat_of_ascii h
  rw [decimalValue?, decimalZeros, List.find?_cons_of_pos]
  · rfl
  · simp only [Bool.and_eq_true, decide_eq_true_eq]
    omega

theorem isSome_of_ascii (h : c.isDigit = true) : (decimalValue? c).isSome = true := by
  rw [decimalValue?_of_ascii h]
  rfl

theorem digitOf_digitChar {value : Nat} (h : value < 10) :
    digitOf (Nat.digitChar value) = value := by
  have hdigit : (Nat.digitChar value).isDigit = true := by
    rw [Nat.isDigit_digitChar]
    exact decide_eq_true h
  rw [digitOf, decimalValue?_of_ascii hdigit, Option.getD_some, Nat.toNat_digitChar_of_lt_ten h]
  omega

/-- A character from `0` to `9` is the digit of its value. -/
theorem digitChar_digitOf (h : c.isDigit = true) : Nat.digitChar (digitOf c) = c := by
  obtain ⟨hfirst, hlast⟩ := toNat_of_ascii h
  apply Char.toNat_inj.mp
  rw [digitOf, decimalValue?_of_ascii h, Option.getD_some,
    Nat.toNat_digitChar_of_lt_ten (by omega)]
  omega

/-- Characters from `0` to `9` of one value are the same. -/
theorem eq_of_digitOf_eq (hc : c.isDigit = true) (hd : d.isDigit = true)
    (h : digitOf c = digitOf d) : c = d := by
  rw [← digitChar_digitOf hc, h, digitChar_digitOf hd]

end LabelLayout.Text
