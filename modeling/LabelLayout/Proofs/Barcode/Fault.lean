import LabelLayout.Barcode
import LabelLayout.Barcode.Qr
import LabelLayout.Proofs.Except
import LabelLayout.Proofs.Json.Text

/-!
# `LabelLayout.Proofs.Barcode.Fault`: values that are neither taken nor refused

A scan code takes a value or refuses it by a rule, but for two sorts of value. The retail
codes let every digit-like character pass as a digit, and then fail to read one that has
no decimal value. A package that makes QR codes has no bytes for a surrogate that stands alone.

`normalize_eq_fault` and `Qr.moduleCount_eq_fault` say that these are the only failures
of their kind, and exactly which values have them. Of the package it takes no more than
`Qr.LawfulPackage`.
-/

set_option autoImplicit false

namespace LabelLayout

namespace Text

/-- Characters other than the mark are spelled as they are. -/
theorem flatMap_spell_toNat {cs : List Char} (h : mark ∉ cs) :
    (cs.map Char.toNat).flatMap spell = cs := by
  induction cs with
  | nil => rfl
  | cons c rest ih =>
    simp only [List.mem_cons, not_or] at h
    rw [List.map_cons, List.flatMap_cons, Json.spell_toNat (Ne.symm h.1), ih h.2]
    rfl

/-- The first code points of a text without the mark are its first characters. -/
theorem takePoints_of_notMem {cs : List Char} (h : mark ∉ cs) (n : Nat) :
    takePoints n cs = cs.take n := by
  rw [takePoints, codePoints_of_notMem h, ← List.map_take]
  exact flatMap_spell_toNat fun hmem => h (List.mem_of_mem_take hmem)

/-- The mark is no digit. -/
theorem isDigit_mark : isDigit mark = false := by decide +kernel

/-- The first code points of digits are the first of them. -/
theorem takePoints_of_isDigit {cs : List Char} (h : ∀ c ∈ cs, isDigit c = true) (n : Nat) :
    takePoints n cs = cs.take n :=
  takePoints_of_notMem (fun hmem => nomatch isDigit_mark.symm.trans (h mark hmem)) n

end Text

namespace Barcode

/-! ### Retail codes -/

/-- Digits cannot be read when one of them has no decimal value. -/
theorem digitValues_eq_error {chars : List Char} {f : Fault} :
    digitValues chars = .error f ↔ f = .notADecimalDigit ∧
      ∃ c ∈ chars, Text.isDigit c = true ∧ Text.decimalValue? c = none := by
  induction chars with
  | nil => simp [digitValues]
  | cons c rest ih =>
    rw [digitValues]
    simp only [List.mem_cons, exists_eq_or_imp]
    cases hdigit : Text.isDigit c with
    | false =>
      rw [if_neg (by decide), ih]
      simp
    | true =>
      rw [if_pos rfl]
      cases hvalue : Text.decimalValue? c with
      | none =>
        simp only [Except.error.injEq, true_or, and_true]
        exact eq_comm
      | some value =>
        simp only [map_eq_error, ih, reduceCtorEq, and_false, false_or]

/-- A value that has the length of a retail code and passes for digits, of which one that
has to be read has no decimal value. -/
structure Retail.Misreads (code : Retail) (text : List Char) : Prop where
  digits : (Text.trim text).all Text.isDigit = true
  length : (Text.trim text).length = code.length ∨ (Text.trim text).length = code.length + 1
  unreadable : ∃ c ∈ (Text.trim text).take code.length, Text.decimalValue? c = none

/-- The check digit of digits fails when one of the first has no decimal value. -/
theorem Retail.checkDigit?_eq_error {code : Retail} {text : List Char} {f : Fault}
    (hdigits : text.all Text.isDigit = true) :
    code.checkDigit? (text.take code.length) = .error f ↔
      f = .notADecimalDigit ∧ ∃ c ∈ text.take code.length, Text.decimalValue? c = none := by
  have hall : ∀ c ∈ text.take code.length, Text.isDigit c = true :=
    fun c hc => List.all_eq_true.mp hdigits c (List.mem_of_mem_take hc)
  have hpoints : Text.takePoints code.length (text.take code.length) = text.take code.length := by
    rw [Text.takePoints_of_isDigit hall, List.take_take, Nat.min_self]
  rw [checkDigit?, hpoints, bind_eq_error, digitValues_eq_error]
  constructor
  · rintro (⟨hf, c, hc, -, hvalue⟩ | ⟨values, -, h⟩)
    · exact ⟨hf, c, hc, hvalue⟩
    · cases h
  · rintro ⟨hf, c, hc, hvalue⟩
    exact .inl ⟨hf, c, hc, hall c hc, hvalue⟩

/-- A retail code neither takes nor refuses exactly the values that it misreads. -/
theorem Retail.normalize_eq_fault {code : Retail} {rules : Retail.Rules} {text : List Char}
    {f : Fault} :
    code.normalize rules text = .error (.fault f) ↔ f = .notADecimalDigit ∧ code.Misreads text := by
  rw [normalize]
  split
  · next hempty =>
    -- What is empty has no character to misread.
    refine ⟨fun h => (nomatch h), fun ⟨_, hmisreads⟩ => ?_⟩
    obtain ⟨c, hc, -⟩ := hmisreads.unreadable
    rw [List.isEmpty_iff.mp hempty] at hc
    exact absurd (List.mem_of_mem_take hc) List.not_mem_nil
  split
  · next hdigits =>
    refine ⟨fun h => (nomatch h), fun ⟨_, hmisreads⟩ => ?_⟩
    rw [hmisreads.digits] at hdigits
    cases hdigits
  split
  · next hlength =>
    refine ⟨fun h => (nomatch h), fun ⟨_, hmisreads⟩ => ?_⟩
    exact absurd hmisreads.length (by omega)
  · next hdigits hlength =>
    have hdigits : (Text.trim text).all Text.isDigit = true := by simpa using hdigits
    have hiff : code.Misreads text ↔
        ∃ c ∈ (Text.trim text).take code.length, Text.decimalValue? c = none :=
      ⟨Misreads.unreadable, fun h => ⟨hdigits, by omega, h⟩⟩
    rw [hiff, ← checkDigit?_eq_error hdigits]
    cases code.checkDigit? ((Text.trim text).take code.length) with
    | error g => simp
    | ok expected? =>
      refine ⟨fun h => ?_, fun h => (nomatch h)⟩
      cases expected? with
      | none => cases h
      | some expected =>
        simp only at h
        split at h
        · cases h
        · split at h <;> cases h

/-- The retail code of a symbology that is one. -/
def retail? : Symbology → Option Retail
  | .ean13 => some ean13
  | .upc => some upcA
  | .code128 | .code39 => none

/-- A symbology neither takes nor refuses a value when it is a retail code that misreads
it. -/
theorem normalize_eq_fault {symbology : Symbology} {value : String} {f : Fault} :
    normalize symbology value = .error (.fault f) ↔ f = .notADecimalDigit ∧
      ∃ code, retail? symbology = some code ∧ code.Misreads value.toList := by
  rw [normalize, map_eq_error]
  cases symbology with
  | ean13 => simp only [normalizeChars, Retail.normalize_eq_fault, retail?, Option.some.injEq,
      exists_eq_left']
  | upc => simp only [normalizeChars, Retail.normalize_eq_fault, retail?, Option.some.injEq,
      exists_eq_left']
  | code128 =>
    refine ⟨fun h => ?_, fun ⟨_, _, h, _⟩ => (nomatch h)⟩
    simp only [normalizeChars, normalizeCode128] at h
    split at h
    · cases h
    · split at h <;> cases h
  | code39 =>
    refine ⟨fun h => ?_, fun ⟨_, _, h, _⟩ => (nomatch h)⟩
    simp only [normalizeChars, normalizeCode39] at h
    split at h
    · cases h
    · split at h
      · cases h
      · split at h <;> cases h

/-! ### QR codes -/

section

variable [Qr.Package] [Qr.LawfulPackage]

/-- A QR code neither takes nor refuses a text that is not blank and holds half of a
surrogate pair alone. -/
theorem Qr.moduleCount_eq_fault {text : String} {level : CorrectionLevel} {f : Fault} :
    moduleCount text level = .error (.fault f) ↔ f = .notEncodable ∧
      Text.trim text.toList ≠ [] ∧
      ∃ code ∈ Text.codePoints text.toList, Text.isSurrogate code = true := by
  rw [moduleCount]
  split
  · next hblank =>
    exact ⟨fun h => (nomatch h), fun h => absurd (List.isEmpty_iff.mp hblank) h.2.1⟩
  · next hblank =>
    have hne : Text.trim text.toList ≠ [] := fun h => hblank (List.isEmpty_iff.mpr h)
    simp only [ne_eq, hne, not_false_eq_true, true_and]
    rw [← LawfulPackage.add_eq_error]
    split
    · next hadd => rw [hadd, Except.error.injEq, Except.error.injEq, Failure.fault.injEq]
    · next chunks hadd =>
      rw [hadd]
      refine ⟨fun h => ?_, fun h => (nomatch h)⟩
      split at h
      · cases h
      · cases h
      · next hmake => exact absurd hmake LawfulPackage.make_ne_fault
      · cases h

/-- A QR code has modules. -/
theorem Qr.moduleCount_pos {text : String} {level : CorrectionLevel} {count : Nat}
    (h : moduleCount text level = .ok count) : 0 < count := by
  rw [moduleCount] at h
  split at h
  · cases h
  · split at h
    · cases h
    · split at h
      · cases h
      · cases h
      · cases h
      · next hmake =>
        cases h
        exact LawfulPackage.pos_of_make hmake

end

end Barcode

end LabelLayout
