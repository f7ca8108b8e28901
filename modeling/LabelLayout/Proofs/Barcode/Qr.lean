import LabelLayout.Proofs.Barcode.Encoder
import LabelLayout.Proofs.Barcode.Fault

/-!
# `LabelLayout.Proofs.Barcode.Qr`: the smallest QR code that holds the data

The size of a code is found by the package that makes it, so what is said here is said of any
package with documented measures. A text that is not blank has a code of the least version that
holds its data, or no version does, or the package breaks off over data that some version holds
(`moduleCount_cases`). The last two are refused as too long alike.

A stronger level has less room in every version, so it needs no smaller one. But whether a package
breaks off hangs on more than room. `moduleCount_zeros` has data that the encoder breaks off over
at one level and has a code for at the level below.
-/

set_option autoImplicit false

namespace LabelLayout.Barcode.Qr

section

variable [Package] {s : Sizing} (hs : s.IsDocumented) {text : String}
  {chunks : List Package.Chunk} (htext : Text.trim text.toList ≠ [])
  (hdata : Package.add text = .ok chunks) (level : CorrectionLevel)

include htext hdata

/-- A code that the package makes has the size. -/
theorem moduleCount_of_make {modules : Nat} (h : Package.make level chunks = .ok modules) :
    moduleCount text level = .ok modules := by
  simp only [moduleCount, List.isEmpty_iff, if_neg htext, hdata, h]

/-- An overflow and a value are refused in the same words. -/
theorem moduleCount_of_make_error (h : Package.make level chunks = .error .overflow ∨
    Package.make level chunks = .error .value) :
    moduleCount text level = .error (.refused (.qrTooLong (Choice.name level))) := by
  obtain h | h := h <;> simp only [moduleCount, List.isEmpty_iff, if_neg htext, hdata, h]

include hs

/-- Data is refused as too long because no version holds it or because the package breaks off, or
it has a code of the least version that does. -/
theorem moduleCount_cases :
    (moduleCount text level = .error (.refused (.qrTooLong (Choice.name level))) ∧
      ((∀ v, ¬ s.Holds level chunks v) ∨ s.BreaksOff level chunks)) ∨
    ∃ v, IsLeast {v | s.Holds level chunks v} v ∧ ¬ s.BreaksOff level chunks ∧
      moduleCount text level = .ok (17 + 4 * v) := by
  obtain ⟨herror, hno⟩ | ⟨v, hleast, hmake | hbreaks⟩ := hs.make_cases level chunks
  · exact .inl ⟨moduleCount_of_make_error htext hdata level herror, .inl hno⟩
  · have hnot : ¬ s.BreaksOff level chunks := fun h => nomatch hmake.symm.trans h.2
    exact .inr ⟨v, hleast, hnot, moduleCount_of_make htext hdata level hmake⟩
  · exact .inl ⟨moduleCount_of_make_error htext hdata level (.inr hbreaks.2), .inr hbreaks⟩

/-- The code has the least version with room, if the package does not break off. -/
theorem moduleCount_eq_ok (n : Nat) :
    moduleCount text level = .ok n ↔ ∃ v, IsLeast {v | s.Holds level chunks v} v ∧
      ¬ s.BreaksOff level chunks ∧ n = 17 + 4 * v := by
  obtain ⟨hcount, hnot⟩ | ⟨v, hleast, hbreaks, hcount⟩ := moduleCount_cases hs htext hdata level
  · rw [hcount]
    refine ⟨fun h => (nomatch h), ?_⟩
    rintro ⟨v, hv, hbreaks, -⟩
    exact absurd hnot (not_or_intro (fun hno => hno v hv.1) hbreaks)
  · rw [hcount, Except.ok.injEq, eq_comm]
    refine ⟨fun hn => ⟨v, hleast, hbreaks, hn⟩, ?_⟩
    rintro ⟨w, hw, -, hn⟩
    rw [hn, hw.unique hleast]

/-- Data is refused as too long where no version has room, or where the package breaks off. -/
theorem moduleCount_eq_tooLong :
    moduleCount text level = .error (.refused (.qrTooLong (Choice.name level))) ↔
      (∀ v, ¬ s.Holds level chunks v) ∨ s.BreaksOff level chunks := by
  obtain ⟨hcount, hnot⟩ | ⟨v, hleast, hbreaks, hcount⟩ := moduleCount_cases hs htext hdata level
  · exact ⟨fun _ => hnot, fun _ => hcount⟩
  · rw [hcount]
    refine ⟨fun h => (nomatch h), fun hnot => ?_⟩
    exact absurd hnot (not_or_intro (fun hno => hno v hleast.1) hbreaks)

/-- A version with room bounds the code, or the package breaks off. -/
theorem moduleCount_of_holds {v : Nat} (h : s.Holds level chunks v) :
    (∃ n ≤ 17 + 4 * v, moduleCount text level = .ok n) ∨ s.BreaksOff level chunks := by
  obtain ⟨-, hno | hbreaks⟩ | ⟨w, hleast, -, hcount⟩ := moduleCount_cases hs htext hdata level
  · exact absurd h (hno v)
  · exact .inr hbreaks
  · have hle : w ≤ v := hleast.2 h
    exact .inl ⟨_, by omega, hcount⟩

end

/-- With a package that makes its codes by what it measures, every text that is not blank and has
bytes has a code of `17 + 4 v` modules exactly when `v` is the least version of the level that
holds its data and the package does not break off, and is refused as too long otherwise. Where a
stronger level has a code, a weaker one has a code that is no larger, unless the package breaks
off. A text with half of a surrogate pair alone has no bytes, and is a fault at every level. -/
theorem moduleCount_isLeast [Package] [LawfulPackage] {s : Sizing} (hs : s.IsDocumented)
    {text : String} (htext : Text.trim text.toList ≠ []) :
    ((∀ code ∈ Text.codePoints text.toList, Text.isSurrogate code = false) →
      ∃ chunks, Package.add text = .ok chunks ∧
        (∀ level,
          (∀ n, moduleCount text level = .ok n ↔
            ∃ v, IsLeast {v | s.Holds level chunks v} v ∧ ¬ s.BreaksOff level chunks ∧
              n = 17 + 4 * v) ∧
          (moduleCount text level = .error (.refused (.qrTooLong (Choice.name level))) ↔
            (∀ v, ¬ s.Holds level chunks v) ∨ s.BreaksOff level chunks)) ∧
        ∀ level stronger, strength level ≤ strength stronger →
          ∀ n, moduleCount text stronger = .ok n →
            (∃ m ≤ n, moduleCount text level = .ok m) ∨ s.BreaksOff level chunks) ∧
    ((∃ code ∈ Text.codePoints text.toList, Text.isSurrogate code = true) →
      ∀ level, moduleCount text level = .error (.fault .notEncodable)) := by
  refine ⟨fun hpoints => ?_, fun hsurrogate level => ?_⟩
  · cases hdata : Package.add text with
    | error f =>
      obtain ⟨-, code, hcode, hsurrogate⟩ := LawfulPackage.add_eq_error.mp hdata
      exact nomatch (hpoints code hcode).symm.trans hsurrogate
    | ok chunks =>
      refine ⟨chunks, rfl, fun level => ?_, fun level stronger hlevel n hn => ?_⟩
      · exact ⟨moduleCount_eq_ok hs htext hdata level, moduleCount_eq_tooLong hs htext hdata level⟩
      · obtain ⟨v, hv, -, rfl⟩ := (moduleCount_eq_ok hs htext hdata stronger n).mp hn
        exact moduleCount_of_holds hs htext hdata level (hv.1.of_strength_le hs hlevel)
  · exact moduleCount_eq_fault.mpr ⟨rfl, htext, hsurrogate⟩

/-- Version 3 of the strongest level is the least that holds fifty-five zeros. They fill a block of
it, which makes the encoder break off, so they are refused. The level below has a code for them. -/
theorem moduleCount_zeros :
    let text := String.ofList (List.replicate 55 '0')
    let parts := segments (List.replicate 55 0x30)
    Text.trim text.toList ≠ [] ∧ encode text = .ok parts ∧ encoderSizing.IsDocumented ∧
      IsLeast {v | encoderSizing.Holds .high parts v} 3 ∧ encoderSizing.BreaksOff .high parts ∧
      (∃ block ∈ blocks .high 3 parts, ∀ bit ∈ block, bit = false) ∧
      moduleCount text .high = .error (.refused (.qrTooLong "H")) ∧
      moduleCount text .quartile = .ok 29 := by
  intro text parts
  have htext : Text.trim text.toList ≠ [] := by decide +kernel
  have hdata : encode text = .ok parts := by decide +kernel
  have hpoints : ∀ code ∈ Text.codePoints text.toList, Text.isSurrogate code = false := by
    decide +kernel
  have hdocumented := isDocumented_encoderSizing
  have hhigh : IsLeast {v | encoderSizing.Holds .high parts v} 3 :=
    isLeast_of_fitVersion (by decide +kernel)
  have hquartile : IsLeast {v | encoderSizing.Holds .quartile parts v} 3 :=
    isLeast_of_fitVersion (by decide +kernel)
  have hbreaks : encoderSizing.BreaksOff .high parts :=
    ⟨⟨3, hhigh.1⟩, show build .high parts = .error .value by decide +kernel⟩
  have hnot : ¬ encoderSizing.BreaksOff .quartile parts := fun h =>
    absurd (show build .quartile parts = .error .value from h.2) (by decide +kernel)
  obtain ⟨chunks, hchunks, hspec, -⟩ := (moduleCount_isLeast hdocumented htext).1 hpoints
  obtain rfl : chunks = parts := Except.ok.inj (hchunks.symm.trans hdata)
  refine ⟨htext, hdata, hdocumented, hhigh, hbreaks, by decide +kernel, ?_, ?_⟩
  · exact (hspec .high).2.mpr (.inr hbreaks)
  · exact ((hspec .quartile).1 29).mpr ⟨3, hquartile, hnot, rfl⟩

end LabelLayout.Barcode.Qr
