import LabelLayout.Proofs.Barcode.Retail

/-!
# `LabelLayout.Proofs.Barcode.Encodes`: what is taken and what can be encoded

`Encodes` says of a symbology, without looking at how values are checked, which texts its bars
can stand for: Code 128 printable ASCII, Code 39 its forty-three characters, and the retail
codes digits from `0` to `9` with a check digit.

What Code 128 and Code 39 take can be encoded. What a retail code takes has the right length
and the right check digit, but it may be written in the digits of another script, and these
are no digits of the code. `encodes_iff_of_normalizeAs` says that this is the only exception.
-/

set_option autoImplicit false

namespace LabelLayout.Barcode

variable {text v : List Char}

/-! ### Code 128 and Code 39 -/

/-- A text of which nothing is left, when what passes in front is dropped, passes throughout. -/
theorem ok_of_dropWhile {passes : Char → Bool} {refusal : List Char → Refusal} :
    (match text.dropWhile passes with
      | [] => .ok text
      | rest => .error (.refused (refusal rest)) : Except Failure (List Char)) = .ok v ↔
      v = text ∧ ∀ c ∈ text, passes c = true := by
  rw [← List.dropWhile_eq_nil_iff]
  cases text.dropWhile passes with
  | nil => exact ⟨fun h => ⟨(Except.ok.inj h).symm, rfl⟩, fun h => congrArg Except.ok h.1.symm⟩
  | cons c rest =>
    constructor
    · rintro ⟨⟩
    · rintro ⟨-, ⟨⟩⟩

/-- Code 128 takes texts of its characters as they are. -/
theorem normalizeCode128_eq_ok :
    normalizeCode128 text = .ok v ↔ v = text ∧ text ≠ [] ∧ ∀ c ∈ text, isCode128 c = true := by
  rw [normalizeCode128]
  split
  · next hempty =>
    constructor
    · rintro ⟨⟩
    · exact fun h => absurd (List.isEmpty_iff.mp hempty) h.2.1
  · next hempty =>
    have hne : text ≠ [] := fun h => hempty (List.isEmpty_iff.mpr h)
    refine ok_of_dropWhile.trans ?_
    simp only [ne_eq, hne, not_false_eq_true, true_and]

theorem notMem_of_isCode39 (h : ∀ c ∈ text, isCode39 c = true) : '*' ∉ text :=
  fun hmem => nomatch (h '*' hmem).symm.trans (show isCode39 '*' = false by decide +kernel)

/-- Code 39 takes texts of its characters, after trimming and upper-casing. -/
theorem normalizeCode39_eq_ok :
    normalizeCode39 text = .ok v ↔
      v = Text.upper (Text.trim text) ∧ v ≠ [] ∧ ∀ c ∈ v, isCode39 c = true := by
  simp only [normalizeCode39]
  generalize Text.upper (Text.trim text) = upper
  split
  · next hempty =>
    constructor
    · rintro ⟨⟩
    · rintro ⟨rfl, hne, -⟩
      exact absurd (List.isEmpty_iff.mp hempty) hne
  split
  · next hasterisk =>
    constructor
    · rintro ⟨⟩
    · rintro ⟨rfl, -, hall⟩
      exact absurd (List.contains_iff_mem.mp hasterisk) (notMem_of_isCode39 hall)
  · next hempty _ =>
    refine ok_of_dropWhile.trans ⟨?_, ?_⟩
    · rintro ⟨rfl, hall⟩
      exact ⟨rfl, fun h => hempty (List.isEmpty_iff.mpr h), hall⟩
    · rintro ⟨rfl, -, hall⟩
      exact ⟨rfl, hall⟩

/-- The alphabet of Code 39. -/
theorem isCode39_cases {c : Char} (h : isCode39 c = true) :
    c.isDigit = true ∨ c.isUpper = true ∨ c ∈ [' ', '-', '.', '$', '/', '+', '%'] := by
  have hall : code39Alphabet.all (fun c => decide (c.isDigit = true ∨ c.isUpper = true ∨
      c ∈ [' ', '-', '.', '$', '/', '+', '%'])) = true := by
    decide +kernel
  exact of_decide_eq_true (List.all_eq_true.mp hall c (List.contains_iff_mem.mp h))

/-! ### All symbologies -/

/-- A complete retail code: all its digits, from `0` to `9`, with the right check digit. -/
structure Retail.Encodes (code : Retail) (text : List Char) : Prop where
  full : code.IsFull text
  checked : 10 ∣ code.controlSum text

/-- The texts that the bars of a symbology can stand for. -/
def Encodes : Symbology → List Char → Prop
  | .code128, text => text ≠ [] ∧ ∀ c ∈ text, 32 ≤ c.toNat ∧ c.toNat ≤ 126
  | .code39, text => text ≠ [] ∧
    ∀ c ∈ text, c.isDigit = true ∨ c.isUpper = true ∨ c ∈ [' ', '-', '.', '$', '/', '+', '%']
  | .ean13, text => ean13.Encodes text
  | .upc, text => upcA.Encodes text

theorem encodes_of_retail? {symbology : Symbology} {code : Retail}
    (h : retail? symbology = some code) : Encodes symbology text ↔ code.Encodes text := by
  cases symbology with
  | ean13 | upc =>
    cases h
    rfl
  | code128 | code39 => cases h

/-- What Code 128 and Code 39 take can be encoded. -/
theorem encodes_of_normalizeChars {symbology : Symbology} (hcode : retail? symbology = none)
    (h : normalizeChars symbology text = .ok v) : Encodes symbology v := by
  cases symbology with
  | code128 =>
    obtain ⟨rfl, hne, hall⟩ := normalizeCode128_eq_ok.mp h
    refine ⟨hne, fun c hc => ?_⟩
    simpa [isCode128] using hall c hc
  | code39 =>
    obtain ⟨-, hne, hall⟩ := normalizeCode39_eq_ok.mp h
    exact ⟨hne, fun c hc => isCode39_cases (hall c hc)⟩
  | ean13 | upc => cases hcode

section

variable {code : Retail} {digits : List Char}

/-- A row of digits with its check digit can be encoded when it is written from `0` to `9`. -/
theorem Retail.IsBalanced.encodes_complete_iff (h : code.IsBalanced) (hrow : code.IsRow digits) :
    code.Encodes (code.complete digits) ↔ ∀ c ∈ digits, c.isDigit = true := by
  constructor
  · intro hencodes c hc
    exact hencodes.full.ascii c (List.mem_append_left _ hc)
  · intro hascii
    have hall : ∀ c ∈ code.complete digits, c.isDigit = true :=
      List.forall_mem_append.mpr
        ⟨hascii, List.forall_mem_singleton.mpr (code.isDigit_closing digits)⟩
    exact ⟨⟨hrow.length_complete, hall⟩, h.dvd_controlSum_complete hrow.length⟩

end

/-- What is taken can be encoded, but for digits of other scripts in the retail codes. A value
that a symbology takes is one that its bars can stand for, exactly when the symbology is no
retail code or all characters of the trimmed value are from `0` to `9`. In a retail code it has
the right length and the right check digit all the same, and all its characters are decimal
digits of some script. -/
theorem encodes_iff_of_normalizeAs {name value v : String} {symbology : Symbology}
    (hname : symbologyOf? name = some symbology) (h : normalizeAs name value = .ok v) :
    (Encodes symbology v.toList ↔ ∀ code, retail? symbology = some code →
      ∀ c ∈ Text.trim value.toList, c.isDigit = true) ∧
    ∀ code, retail? symbology = some code →
      v.toList.length = code.length + 1 ∧ 10 ∣ code.controlSum v.toList ∧
        ∀ c ∈ v.toList, (Text.decimalValue? c).isSome = true := by
  cases hcode : retail? symbology with
  | none =>
    have hrun : normalizeAs name value =
        (normalizeChars symbology value.toList).map String.ofList := by
      rw [normalizeAs, hname]
      rfl
    obtain ⟨chars, hchars, rfl⟩ := map_eq_ok.mp (hrun.symm.trans h)
    rw [String.toList_ofList]
    refine ⟨⟨fun _ => ?_, fun _ => encodes_of_normalizeChars hcode hchars⟩, ?_⟩
    · rintro _ ⟨⟩
    · rintro _ ⟨⟩
  | some code =>
    obtain ⟨rules, hrun⟩ := exists_rules hname hcode
    have hbalanced := isBalanced_of_retail? hcode
    obtain ⟨chars, hchars, rfl⟩ := map_eq_ok.mp ((hrun value).symm.trans h)
    obtain ⟨digits, hrow, rfl, htrim⟩ := (Retail.normalize_eq_ok hbalanced.length_pos).mp hchars
    have hclosing := code.isDigit_closing digits
    have hascii : (∀ c ∈ Text.trim value.toList, c.isDigit = true) ↔
        ∀ c ∈ digits, c.isDigit = true := by
      rcases htrim with htrim | htrim
      · rw [htrim]
      · rw [htrim, Retail.complete, List.forall_mem_append, List.forall_mem_singleton]
        exact and_iff_left hclosing
    simp only [Option.some.injEq, forall_eq', String.toList_ofList]
    refine ⟨(encodes_of_retail? hcode).trans ?_, hrow.length_complete,
      hbalanced.dvd_controlSum_complete hrow.length, ?_⟩
    · rw [hascii]
      exact hbalanced.encodes_complete_iff hrow
    · exact List.forall_mem_append.mpr
        ⟨hrow.decimal, List.forall_mem_singleton.mpr (Text.isSome_of_ascii hclosing)⟩

/-- Twelve digits of another script are completed by a check digit, and cannot be encoded. -/
theorem not_encodes_devanagari :
    normalizeAs "EAN13" "१२३४५६७८९०१२" = .ok "१२३४५६७८९०१२8" ∧
      ¬ Encodes .ean13 "१२३४५६७८९०१२8".toList := by
  have hname : symbologyOf? "EAN13" = some .ean13 := by decide +kernel
  have htaken : normalizeAs "EAN13" "१२३४५६७८९०१२" = .ok "१२३४५६७८९०१२8" := by decide +kernel
  refine ⟨htaken, fun hencodes => ?_⟩
  have hascii :=
    (encodes_iff_of_normalizeAs hname htaken).1.mp hencodes _ rfl '१' (by decide +kernel)
  exact nomatch hascii

end LabelLayout.Barcode
