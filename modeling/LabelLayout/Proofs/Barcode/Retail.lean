import LabelLayout.Proofs.Barcode.Fault
import LabelLayout.Proofs.Text.Digit
import Mathlib.Algebra.BigOperators.Fin

/-!
# `LabelLayout.Proofs.Barcode.Retail`: what the retail codes take

A retail code takes a text that, trimmed, consists of its number of decimal digits, alone or
with their check digit behind them, and gives the digits with their check digit
(`Retail.normalize_eq_ok`). The digits may be of any script, the check digit is one of the
characters from `0` to `9`.

`Retail.controlSum` is the sum of the digits, each with the weight of its place. Both retail
codes weigh by one and three in turn and give the check digit the weight one
(`Retail.IsBalanced`), so the check digit is the one that makes the control sum a multiple of
ten (`Retail.IsBalanced.dvd_controlSum_iff`).
-/

set_option autoImplicit false

namespace LabelLayout.Barcode

open Text (decimalValue? digitOf)

/-! ### The check digit -/

/-- Decimal digits are read one by one. -/
theorem digitValues_of_isSome {chars : List Char}
    (h : ∀ c ∈ chars, (decimalValue? c).isSome = true) :
    digitValues chars = .ok (chars.map digitOf) := by
  induction chars with
  | nil => rfl
  | cons c rest ih =>
    obtain ⟨hc, hrest⟩ := List.forall_mem_cons.mp h
    obtain ⟨value, hvalue⟩ := Option.isSome_iff_exists.mp hc
    rw [digitValues, if_pos (Text.isDigit_of_isSome hc), hvalue, ih hrest, List.map_cons, digitOf,
      hvalue]
    rfl

theorem isDigit_checkDigit (sum : Nat) : (checkDigit sum).isDigit = true := by
  rw [checkDigit, Nat.isDigit_digitChar]
  exact decide_eq_true (Nat.mod_lt _ (by decide))

namespace Retail

variable {code : Retail} {rules : Rules} {digits text v : List Char}

/-- The check digit that closes a row of digits. -/
def closing (code : Retail) (digits : List Char) : Char :=
  checkDigit (weightedSum code.odd code.even (digits.map digitOf))

/-- A row of digits with its check digit. -/
def complete (code : Retail) (digits : List Char) : List Char := digits ++ [code.closing digits]

theorem isDigit_closing (code : Retail) (digits : List Char) :
    (code.closing digits).isDigit = true :=
  isDigit_checkDigit _

/-- A row of digits of the right length that the code can read. -/
structure IsRow (code : Retail) (digits : List Char) : Prop where
  length : digits.length = code.length
  decimal : ∀ c ∈ digits, (decimalValue? c).isSome = true

theorem IsRow.isDigit (h : code.IsRow digits) : ∀ c ∈ digits, Text.isDigit c = true :=
  fun c hc => Text.isDigit_of_isSome (h.decimal c hc)

theorem IsRow.length_complete (h : code.IsRow digits) :
    (code.complete digits).length = code.length + 1 := by
  rw [complete, List.length_append, h.length, List.length_singleton]

theorem IsRow.checkDigit?_eq (h : code.IsRow digits) :
    code.checkDigit? digits = .ok (some (code.closing digits)) := by
  have hpoints : Text.takePoints code.length digits = digits := by
    rw [Text.takePoints_of_isDigit h.isDigit, ← h.length, List.take_length]
  rw [checkDigit?, hpoints, digitValues_of_isSome h.decimal, ok_bind, checkDigitOf?,
    List.length_map, if_pos h.length]
  rfl

/-! ### Texts that are taken -/

theorem normalize_trim : code.normalize rules (Text.trim text) = code.normalize rules text := by
  simp only [normalize, Text.trim_trim]

/-- Digits of the right length are completed by their check digit, or compared with it. -/
theorem normalize_of_isDigit (hpos : 0 < code.length) (hdigits : ∀ c ∈ text, Text.isDigit c = true)
    (hlength : text.length = code.length ∨ text.length = code.length + 1)
    (hrow : code.IsRow (text.take code.length)) :
    code.normalize rules text = match text.drop code.length with
      | [] => .ok (text ++ [code.closing (text.take code.length)])
      | got :: _ =>
        if got = code.closing (text.take code.length) then .ok text
        else .error
          (.refused (rules.wrongCheckDigit got (code.closing (text.take code.length)))) := by
  have htrim : Text.trim text = text := Text.trim_of_isDigit hdigits
  have hnonempty : text.isEmpty = false := by
    rw [List.isEmpty_eq_false_iff, ← List.length_pos_iff]
    omega
  have hpasses : (!text.all Text.isDigit) = false := by
    rw [List.all_eq_true.mpr hdigits]
    rfl
  have hfits : ¬ (text.length ≠ code.length ∧ text.length ≠ code.length + 1) := by omega
  cases hdrop : text.drop code.length <;>
    simp only [normalize, htrim, hnonempty, hpasses, if_neg hfits, Bool.false_eq_true, if_false,
      hrow.checkDigit?_eq, hdrop]

/-- A row of digits by itself is completed. -/
theorem IsRow.normalize_eq (h : code.IsRow digits) (hpos : 0 < code.length) :
    code.normalize rules digits = .ok (code.complete digits) := by
  have htake : digits.take code.length = digits := by rw [← h.length, List.take_length]
  have hdrop : digits.drop code.length = [] := by rw [← h.length, List.drop_length]
  rw [normalize_of_isDigit hpos h.isDigit (.inl h.length) (htake.symm ▸ h), hdrop, htake]
  rfl

/-- A digit behind a row of digits is compared with the check digit. -/
theorem IsRow.normalize_append (h : code.IsRow digits) (hpos : 0 < code.length) {c : Char}
    (hc : Text.isDigit c = true) :
    code.normalize rules (digits ++ [c]) =
      if c = code.closing digits then .ok (digits ++ [c])
      else .error (.refused (rules.wrongCheckDigit c (code.closing digits))) := by
  have hdigits : ∀ d ∈ digits ++ [c], Text.isDigit d = true :=
    List.forall_mem_append.mpr ⟨h.isDigit, List.forall_mem_singleton.mpr hc⟩
  have hlength : (digits ++ [c]).length = code.length + 1 := by
    rw [List.length_append, h.length, List.length_singleton]
  have htake : (digits ++ [c]).take code.length = digits := by rw [← h.length, List.take_left]
  have hdrop : (digits ++ [c]).drop code.length = [c] := by rw [← h.length, List.drop_left]
  rw [normalize_of_isDigit hpos hdigits (.inr hlength) (htake.symm ▸ h), hdrop, htake]

/-- What a retail code takes begins with a row of digits, with at most one digit behind it. -/
theorem isRow_of_normalize (h : code.normalize rules text = .ok v) :
    (∀ c ∈ Text.trim text, Text.isDigit c = true) ∧
      ((Text.trim text).length = code.length ∨ (Text.trim text).length = code.length + 1) ∧
      code.IsRow ((Text.trim text).take code.length) := by
  -- What is misread is not taken, so all that has to be read can be.
  have hreads : ¬ code.Misreads text := by
    intro hmisreads
    rw [normalize_eq_fault.mpr ⟨rfl, hmisreads⟩] at h
    cases h
  rw [normalize] at h
  split at h
  · cases h
  split at h
  · cases h
  split at h
  · cases h
  next hdigits hlength =>
  have hdigits : ∀ c ∈ Text.trim text, Text.isDigit c = true := by simpa using hdigits
  have hlength : (Text.trim text).length = code.length ∨
      (Text.trim text).length = code.length + 1 := by omega
  refine ⟨hdigits, hlength, by rw [List.length_take]; omega, fun c hc => ?_⟩
  rw [Option.isSome_iff_ne_none]
  exact fun hnone => hreads ⟨List.all_eq_true.mpr hdigits, hlength, c, hc, hnone⟩

/-- A retail code takes a row of digits, alone or with its check digit, and blanks around it,
and nothing else. -/
theorem normalize_eq_ok (hpos : 0 < code.length) :
    code.normalize rules text = .ok v ↔ ∃ digits, code.IsRow digits ∧ v = code.complete digits ∧
      (Text.trim text = digits ∨ Text.trim text = code.complete digits) := by
  constructor
  · intro h
    obtain ⟨hdigits, hlength, hrow⟩ := isRow_of_normalize h
    have hsplit := List.take_append_drop code.length (Text.trim text)
    rw [← normalize_trim, normalize_of_isDigit hpos hdigits hlength hrow] at h
    refine ⟨_, hrow, ?_⟩
    cases hdrop : (Text.trim text).drop code.length with
    | nil =>
      rw [hdrop, List.append_nil] at hsplit
      rw [hdrop] at h
      cases h
      rw [complete, hsplit]
      exact ⟨rfl, .inl rfl⟩
    | cons got rest =>
      obtain rfl : rest = [] := by
        have hrest := congrArg List.length hdrop
        rw [List.length_drop, List.length_cons] at hrest
        exact List.eq_nil_of_length_eq_zero (by omega)
      rw [hdrop] at h hsplit
      simp only at h
      split at h
      · next hgot =>
        cases h
        rw [complete, ← hgot, hsplit]
        exact ⟨rfl, .inr rfl⟩
      · cases h
  · rintro ⟨digits, hrow, rfl, htrim | htrim⟩
    · rw [← normalize_trim, htrim, hrow.normalize_eq hpos]
    · have hclosing : Text.isDigit (code.closing digits) = true :=
        Text.isDigit_of_isSome (Text.isSome_of_ascii (code.isDigit_closing digits))
      rw [← normalize_trim, htrim, complete, hrow.normalize_append hpos hclosing, if_pos rfl]

/-! ### Complete codes -/

/-- Characters from `0` to `9`, so many as a retail code has with its check digit. -/
structure IsFull (code : Retail) (digits : List Char) : Prop where
  length : digits.length = code.length + 1
  ascii : ∀ c ∈ digits, c.isDigit = true

theorem isRow_of_ascii (hlength : digits.length = code.length)
    (h : ∀ c ∈ digits, c.isDigit = true) : code.IsRow digits :=
  ⟨hlength, fun c hc => Text.isSome_of_ascii (h c hc)⟩

/-- A complete code is a row of digits and a digit to be compared with their check digit. -/
theorem IsFull.exists_row (h : code.IsFull digits) :
    ∃ row c, digits = row ++ [c] ∧ code.IsRow row ∧ c.isDigit = true := by
  rcases List.eq_nil_or_concat digits with rfl | ⟨row, c, rfl⟩
  · exact nomatch h.length
  · rw [List.concat_eq_append] at h ⊢
    obtain ⟨hrow, hc⟩ := List.forall_mem_append.mp h.ascii
    have hlength : row.length = code.length := by
      have hfull := h.length
      rw [List.length_append, List.length_singleton] at hfull
      omega
    exact ⟨row, c, rfl, isRow_of_ascii hlength hrow, hc c List.mem_cons_self⟩

/-! ### Control sums -/

/-- The weight of a place, the places being counted from zero. -/
def weight (code : Retail) (place : Nat) : Nat := if place % 2 = 0 then code.odd else code.even

/-- The sum of the digits, each with the weight of its place. -/
def controlSum (code : Retail) (digits : List Char) : Nat :=
  ∑ place : Fin digits.length, code.weight place * digitOf digits[place]

/-- The code with its weights exchanged, which weighs what stands behind a digit. -/
def turned (code : Retail) : Retail := { code with odd := code.even, even := code.odd }

theorem weight_zero (code : Retail) : code.weight 0 = code.odd := rfl

theorem weight_succ (code : Retail) (place : Nat) :
    code.weight (place + 1) = code.turned.weight place := by
  simp only [weight, turned]
  by_cases heven : place % 2 = 0
  · have hodd : ¬ (place + 1) % 2 = 0 := by omega
    rw [if_pos heven, if_neg hodd]
  · have heven' : (place + 1) % 2 = 0 := by omega
    rw [if_neg heven, if_pos heven']

theorem controlSum_nil (code : Retail) : code.controlSum [] = 0 := rfl

theorem controlSum_cons (code : Retail) (c : Char) (rest : List Char) :
    code.controlSum (c :: rest) = code.odd * digitOf c + code.turned.controlSum rest := by
  show ∑ place : Fin (rest.length + 1), code.weight place * digitOf (c :: rest)[place] = _
  rw [Fin.sum_univ_succ]
  refine congrArg₂ _ rfl (Finset.sum_congr rfl fun place _ => ?_)
  rw [← weight_succ]
  rfl

/-- Going through the digits with the weights in turn adds up the control sum. -/
theorem weightedSum_eq_controlSum (code : Retail) (digits : List Char) :
    weightedSum code.odd code.even (digits.map digitOf) = code.controlSum digits := by
  induction digits generalizing code with
  | nil => rfl
  | cons c rest ih =>
    rw [List.map_cons, weightedSum, controlSum_cons, ← ih]
    rfl

section

variable (code : Retail) (before after : List Char) (a b : Char)

/-- A digit at the end adds itself with the weight of its place. -/
theorem controlSum_append_singleton :
    code.controlSum (before ++ [a]) =
      code.controlSum before + code.weight before.length * digitOf a := by
  induction before generalizing code with
  | nil =>
    rw [List.nil_append, controlSum_cons, controlSum_nil, controlSum_nil, List.length_nil,
      weight_zero, Nat.add_zero, Nat.zero_add]
  | cons c before ih =>
    rw [List.cons_append, controlSum_cons, controlSum_cons, ih, List.length_cons, weight_succ,
      Nat.add_assoc]

/-- Where a digit is changed, the sum changes by the weight of its place. -/
theorem controlSum_change :
    code.controlSum (before ++ a :: after) + code.weight before.length * digitOf b =
      code.controlSum (before ++ b :: after) + code.weight before.length * digitOf a := by
  induction before generalizing code with
  | nil =>
    simp only [List.nil_append, controlSum_cons, List.length_nil, weight_zero]
    omega
  | cons c before ih =>
    have hrest := ih code.turned
    simp only [List.cons_append, controlSum_cons, List.length_cons, weight_succ]
    omega

/-- Where neighbours change places, each comes to the weight of the other. -/
theorem controlSum_swap :
    code.controlSum (before ++ a :: b :: after) +
        (code.weight before.length * digitOf b + code.weight (before.length + 1) * digitOf a) =
      code.controlSum (before ++ b :: a :: after) +
        (code.weight before.length * digitOf a + code.weight (before.length + 1) * digitOf b) := by
  induction before generalizing code with
  | nil =>
    simp only [List.nil_append, controlSum_cons, List.length_nil, weight_succ, weight_zero]
    omega
  | cons c before ih =>
    have hrest := ih code.turned
    simp only [List.cons_append, controlSum_cons, List.length_cons, weight_succ] at hrest ⊢
    omega

end

/-- The weights are one and three in turn, and the check digit has the weight one. -/
structure IsBalanced (code : Retail) : Prop where
  length_pos : 0 < code.length
  weights : code.odd = 1 ∧ code.even = 3 ∨ code.odd = 3 ∧ code.even = 1
  last : code.weight code.length = 1

namespace IsBalanced

variable {c : Char}

/-- Of two neighbouring places one has the weight one and the other the weight three. -/
theorem weight_cases (h : code.IsBalanced) (place : Nat) :
    code.weight place = 1 ∧ code.weight (place + 1) = 3 ∨
      code.weight place = 3 ∧ code.weight (place + 1) = 1 := by
  rw [weight_succ]
  by_cases heven : place % 2 = 0
  · simp only [weight, turned, if_pos heven]
    exact h.weights
  · simp only [weight, turned, if_neg heven]
    exact h.weights.symm.imp And.symm And.symm

/-- The check digit is the one that makes the control sum a multiple of ten. -/
theorem dvd_controlSum_iff (h : code.IsBalanced) (hlength : digits.length = code.length)
    (hc : c.isDigit = true) : 10 ∣ code.controlSum (digits ++ [c]) ↔ c = code.closing digits := by
  have hsum : code.controlSum (digits ++ [c]) = code.controlSum digits + digitOf c := by
    rw [controlSum_append_singleton, hlength, h.last, Nat.one_mul]
  have hclosing : code.closing digits =
      Nat.digitChar ((10 - code.controlSum digits % 10) % 10) := by
    rw [closing, checkDigit, weightedSum_eq_controlSum]
  have hten : (10 - code.controlSum digits % 10) % 10 < 10 := Nat.mod_lt _ (by decide)
  have hlt := Text.digitOf_lt_ten c
  rw [hsum]
  constructor
  · intro hdvd
    rw [hclosing, ← Text.digitChar_digitOf hc]
    congr 1
    omega
  · rintro rfl
    rw [hclosing, Text.digitOf_digitChar hten]
    omega

theorem dvd_controlSum_complete (h : code.IsBalanced) (hlength : digits.length = code.length) :
    10 ∣ code.controlSum (code.complete digits) :=
  (h.dvd_controlSum_iff hlength (code.isDigit_closing digits)).mpr rfl

end IsBalanced

end Retail

/-- Both retail codes are weighed alike. -/
theorem isBalanced_of_retail? {symbology : Symbology} {code : Retail}
    (h : retail? symbology = some code) : code.IsBalanced := by
  cases symbology with
  | ean13 =>
    cases h
    exact ⟨by decide, .inl ⟨rfl, rfl⟩, rfl⟩
  | upc =>
    cases h
    exact ⟨by decide, .inr ⟨rfl, rfl⟩, rfl⟩
  | code128 | code39 => cases h

/-- A name of a retail code leads to its rules. -/
theorem exists_rules {name : String} {symbology : Symbology} {code : Retail}
    (hname : symbologyOf? name = some symbology) (hcode : retail? symbology = some code) :
    ∃ rules, ∀ value, normalizeAs name value =
      (code.normalize rules value.toList).map String.ofList := by
  cases symbology with
  | ean13 =>
    cases hcode
    exact ⟨ean13Rules, fun value => by rw [normalizeAs, hname]; rfl⟩
  | upc =>
    cases hcode
    exact ⟨upcARules, fun value => by rw [normalizeAs, hname]; rfl⟩
  | code128 | code39 => cases hcode

end LabelLayout.Barcode
