import LabelLayout.Proofs.Document.Valid
import LabelLayout.Proofs.Print.Units
import LabelLayout.Proofs.Scalar.Reading

/-!
# `LabelLayout.Proofs.Print.Canvas`: labels that have a canvas

The sides of a label are multiplied by the dots per inch, rounded, and brought to the nearest
whole number. Each of these steps is refused for a side that is infinite or no number, and the
half that is added makes a double of every product, so that one too large for a double is
refused as well. Nothing else is: above any product that is a double there is room for a half
(`fits_add_half`). `exists_canvasSize_iff` says which sides have whole pixels.
-/

set_option autoImplicit false

namespace LabelLayout

open Binary64

/-- A product with a small integer has a double when the exact product lies below
`leastTooLarge`, whether the other factor is an integer or not. -/
theorem Number.exists_isNear_mul_int {a : Number} {n k : Int} (hn : n.natAbs ≤ 2 ^ 53) :
    (∃ c, Number.mul a (.int n) = .ok c ∧ c.IsNear k) ↔
      ∃ m, a.units? = some m ∧ Fits (rounded (m * n) 1) ∧ rounded (m * n) 1 = k := by
  cases a with
  | int p =>
    have hproduct : (p * oneUnits : Int) * n = p * n * oneUnits := by
      rw [Int.mul_assoc, Int.mul_comm (oneUnits : Int), Int.mul_assoc]
    simp only [Number.mul, Except.ok.injEq, exists_eq_left', isNear_iff, units?,
      Option.some.injEq, hproduct]
  | float x =>
    have hself := rounded_int hn
    obtain ⟨y, hy, hunits⟩ : (Number.int n).IsNear (n * oneUnits) :=
      isNear_iff.mpr ⟨_, rfl, hself.symm ▸ (representable_int hn).1, hself⟩
    have hproduct (m : Int) : rounded (m * (n * oneUnits)) oneUnits = rounded (m * n) 1 := by
      rw [← rounded_mul_mul (m * n) 1 oneUnits_pos, Int.mul_assoc, Nat.one_mul]
    simp only [float_mul, hy, ok_bind, Except.ok.injEq, exists_eq_left', isNear_float,
      units?_mul_eq_some, hunits, Option.some.injEq, exists_and_left, hproduct, units?]

namespace Print

/-- Above any double there is room for a half. -/
theorem fits_add_half {k : Int} (hk : 0 ≤ k) (h : Representable k.natAbs) :
    Fits (rounded (k + halfUnits) 1) := by
  have hsum : (k + halfUnits).natAbs = k.natAbs + halfUnits := by omega
  have hhalf : halfUnits < oneUnits := by
    have htwo := two_mul_halfUnits
    have hone := oneUnits_pos
    omega
  rw [fits_rounded_iff, hsum]
  exact h.add_lt hhalf

/-- A side that is not negative has whole pixels when it is finite and its exact product with the
dots per inch lies below `leastTooLarge`. -/
theorem exists_inchesToPixels_iff {side : Number} {n : Int} (hside : side.le (.int 0) = false)
    (hn0 : 0 ≤ n) (hn : n ≤ 2 ^ 53) :
    (∃ p, inchesToPixels side (.int n) = .ok p) ↔
      (∃ m, side.units? = some m) ∧ side.value * n < leastTooLarge := by
  have hproduct {m : Int} (hm : side.units? = some m) :
      0 ≤ m * n ∧ (side.value * n < leastTooLarge ↔ Fits (rounded (m * n) 1)) := by
    have hm0 : 0 ≤ m := by
      have hle := (Number.le_iff rfl hm).mp (Number.le_of_not_le hm rfl hside)
      rwa [Int.zero_mul] at hle
    have hmn := Int.mul_nonneg hm0 hn0
    refine ⟨hmn, ?_⟩
    rw [Number.value_eq hm, div_mul_eq_mul_div, div_lt_iff₀ Number.oneUnits_rat_pos,
      fits_rounded_iff, ← Int.ofNat_lt, Int.natAbs_of_nonneg hmn]
    exact_mod_cast Iff.rfl
  constructor
  · rintro ⟨p, hp⟩
    obtain ⟨c, k, hc, hk, -, -⟩ := inchesToPixels_eq_ok.mp hp
    obtain ⟨m, hm, hfits, -⟩ := (Number.exists_isNear_mul_int (by omega)).mp ⟨c, hc, hk⟩
    exact ⟨⟨m, hm⟩, (hproduct hm).2.mpr hfits⟩
  · rintro ⟨⟨m, hm⟩, hlt⟩
    obtain ⟨hmn, hfits⟩ := hproduct hm
    obtain ⟨c, hc, hk⟩ := (Number.exists_isNear_mul_int (by omega)).mpr
      ⟨m, hm, hfits.mp hlt, rfl⟩
    exact ⟨_, inchesToPixels_eq_ok.mpr ⟨c, _, hc, hk,
      fits_add_half (rounded_nonneg hmn 1) hk.representable, rfl⟩⟩

/-- A label has a canvas when each of its sides has whole pixels. -/
theorem exists_canvasSize_iff {size : LabelSize Number} {n : Int} (hsize : size.IsValid)
    (hn0 : 0 ≤ n) (hn : n ≤ 2 ^ 53) :
    (∃ canvas, canvasSize size (.int n) = .ok canvas) ↔
      ∀ side ∈ [size.width, size.height],
        (∃ m, side.units? = some m) ∧ side.value * n < leastTooLarge := by
  rw [List.forall_mem_cons, List.forall_mem_singleton,
    ← exists_inchesToPixels_iff hsize.1 hn0 hn, ← exists_inchesToPixels_iff hsize.2 hn0 hn]
  simp only [canvasSize, bind_eq_ok, pure_eq_ok]
  constructor
  · rintro ⟨_, width, hwidth, height, hheight, -⟩
    exact ⟨⟨width, hwidth⟩, height, hheight⟩
  · rintro ⟨⟨width, hwidth⟩, height, hheight⟩
    exact ⟨_, width, hwidth, height, hheight, rfl⟩

end Print

end LabelLayout
