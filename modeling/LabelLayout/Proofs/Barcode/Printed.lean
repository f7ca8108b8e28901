import LabelLayout.Proofs.Barcode.Encodes
import LabelLayout.Proofs.Text.Upper

/-!
# `LabelLayout.Proofs.Barcode.Printed`: printed forms stay as they are

`IsPrinted` says of a symbology what its printed forms look like: a text of Code 128
characters; a text of Code 39 characters that has nothing to trim and nothing to upper-case; a
row of digits with its check digit behind it.

Whatever a symbology makes of a value is such a text (`isPrinted_of_normalizeChars`), and such
a text it leaves as it is (`IsPrinted.normalizeChars_self`). So a value that was put in its
printed form once stays in it (`normalizeAs_printed`).
-/

set_option autoImplicit false

namespace LabelLayout.Barcode

variable {symbology : Symbology} {text v : List Char}

/-- Code 39 has no letters but those of its own case. -/
theorem upper_of_isCode39 (h : ∀ c ∈ v, isCode39 c = true) : Text.upper v = v := by
  have hletters : code39Alphabet.all (fun c => Text.upperChar c == [c]) = true := by
    decide +kernel
  have hkept : ∀ c ∈ v, Text.upperChar c = [c] := by
    intro c hc
    exact eq_of_beq (List.all_eq_true.mp hletters c (List.contains_iff_mem.mp (h c hc)))
  rw [Text.upper, List.flatMap_congr hkept, List.flatMap_singleton']

/-- A row of digits with its check digit. -/
def Retail.IsComplete (code : Retail) (text : List Char) : Prop :=
  ∃ digits, code.IsRow digits ∧ text = code.complete digits

/-- The texts that a symbology prints. -/
def IsPrinted : Symbology → List Char → Prop
  | .code128, text => text ≠ [] ∧ ∀ c ∈ text, isCode128 c = true
  | .code39, text => Text.trim text = text ∧ Text.upper text = text ∧
    text ≠ [] ∧ ∀ c ∈ text, isCode39 c = true
  | .ean13, text => ean13.IsComplete text
  | .upc, text => upcA.IsComplete text

/-! ### Retail codes -/

namespace Retail

variable {code : Retail} {rules : Rules} {digits : List Char}

theorem IsRow.trim_complete (h : code.IsRow digits) :
    Text.trim (code.complete digits) = code.complete digits := by
  have hclosing : Text.isDigit (code.closing digits) = true :=
    Text.isDigit_of_isSome (Text.isSome_of_ascii (code.isDigit_closing digits))
  apply Text.trim_of_isDigit
  intro c hc
  rcases List.mem_append.mp hc with hc | hc
  · exact h.isDigit c hc
  · rwa [List.mem_singleton.mp hc]

theorem isComplete_of_normalize (hpos : 0 < code.length) (h : code.normalize rules text = .ok v) :
    code.IsComplete v := by
  obtain ⟨digits, hrow, rfl, -⟩ := (normalize_eq_ok hpos).mp h
  exact ⟨digits, hrow, rfl⟩

/-- No second check digit is put behind the first. -/
theorem IsComplete.normalize_self (hpos : 0 < code.length) (h : code.IsComplete v) :
    code.normalize rules v = .ok v := by
  obtain ⟨digits, hrow, rfl⟩ := h
  rw [normalize_eq_ok hpos]
  exact ⟨digits, hrow, rfl, .inr hrow.trim_complete⟩

end Retail

/-! ### All symbologies -/

/-- What a symbology makes of a text is a printed form. -/
theorem isPrinted_of_normalizeChars (h : normalizeChars symbology text = .ok v) :
    IsPrinted symbology v := by
  cases symbology with
  | code128 =>
    obtain ⟨rfl, hne, hall⟩ := normalizeCode128_eq_ok.mp h
    exact ⟨hne, hall⟩
  | code39 =>
    obtain ⟨rfl, hne, hall⟩ := normalizeCode39_eq_ok.mp h
    exact ⟨Text.trim_upper (Text.trim_trim text), upper_of_isCode39 hall, hne, hall⟩
  | ean13 => exact Retail.isComplete_of_normalize (by decide) h
  | upc => exact Retail.isComplete_of_normalize (by decide) h

/-- A symbology leaves its printed forms as they are. -/
theorem IsPrinted.normalizeChars_self (h : IsPrinted symbology v) :
    normalizeChars symbology v = .ok v := by
  cases symbology with
  | code128 => exact normalizeCode128_eq_ok.mpr ⟨rfl, h⟩
  | code39 =>
    obtain ⟨htrim, hupper, hprinted⟩ := h
    apply normalizeCode39_eq_ok.mpr
    rw [htrim, hupper]
    exact ⟨rfl, hprinted⟩
  | ean13 => exact Retail.IsComplete.normalize_self (by decide) h
  | upc => exact Retail.IsComplete.normalize_self (by decide) h

/-- Under a name a value is taken when the symbology that the name means takes it. -/
theorem normalizeAs_eq_ok {name value w : String} : normalizeAs name value = .ok w ↔
    ∃ symbology, symbologyOf? name = some symbology ∧
      normalizeChars symbology value.toList = .ok w.toList := by
  unfold normalizeAs
  cases symbologyOf? name with
  | none => simp
  | some symbology =>
    simp only [normalize, map_eq_ok, Option.some.injEq, exists_eq_left']
    constructor
    · rintro ⟨chars, hchars, rfl⟩
      rwa [String.toList_ofList]
    · intro h
      exact ⟨w.toList, h, String.ofList_toList⟩

/-- A value is put in its printed form once and for all. What a name of a symbology makes of a
value, it makes of itself, for it is a printed form of the symbology: no check digit is put
behind a check digit, and a text of Code 39 has nothing left to trim or to upper-case. -/
theorem normalizeAs_printed {name value printed : String}
    (h : normalizeAs name value = .ok printed) :
    normalizeAs name printed = .ok printed ∧
      ∃ symbology, symbologyOf? name = some symbology ∧ IsPrinted symbology printed.toList := by
  obtain ⟨symbology, hname, hchars⟩ := normalizeAs_eq_ok.mp h
  have hprinted : IsPrinted symbology printed.toList := isPrinted_of_normalizeChars hchars
  constructor
  · rw [normalizeAs_eq_ok]
    exact ⟨symbology, hname, hprinted.normalizeChars_self⟩
  · exact ⟨symbology, hname, hprinted⟩

/-- Blanks, small letters and a letter with two capitals, in a code whose name has blanks around
it too. -/
theorem normalizeAs_printed_sample :
    normalizeAs " Code39 " "\tstraße 7 " = .ok "STRASSE 7" ∧
      normalizeAs " Code39 " "STRASSE 7" = .ok "STRASSE 7" := by
  have htaken : normalizeAs " Code39 " "\tstraße 7 " = .ok "STRASSE 7" := by decide +kernel
  exact ⟨htaken, (normalizeAs_printed htaken).1⟩

end LabelLayout.Barcode
