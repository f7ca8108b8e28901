import LabelLayout.Proofs.Binary64.Nearest

/-!
# `LabelLayout.Proofs.Binary64.Shortest`: a written double is the double again

A decimal may be written in many ways, with zeros moved between its digits and its
exponent. `Decimal.units_shift` says that this does not change the double it reads
as, and from it follow the two halves of a round trip:

* `Decimal.units_shortest`: the shortest decimal of a double reads as that double.
  The search only ever takes a decimal that does, and where it finds none the
  double's own exact decimal stands in;
* `Binary64.ofDecimal_of_units`: a decimal that reads as a double other than zero is
  never taken for one far out of range, so reading it gives that double.
-/

set_option autoImplicit false

namespace LabelLayout

namespace Decimal

theorem quotient_den_pos (d : Decimal) : 0 < d.quotient.2 := by
  rw [quotient]
  split
  · exact Nat.one_pos
  · rw [Nat.pow_eq]
    exact Nat.pow_pos (by decide)

/-- Zeros moved from the exponent to the digits leave the double as it is. -/
theorem units_shift (digits k : Nat) (e : Int) :
    (⟨digits * 10 ^ k, e - k⟩ : Decimal).units = (⟨digits, e⟩ : Decimal).units := by
  refine nearest_congr (quotient_den_pos _) (quotient_den_pos _) ?_
  simp only [quotient, Nat.pow_eq]
  -- The quotient is split at the sign of the exponent, and the shift may pass zero.
  by_cases hlow : 0 ≤ e - k
  · have hhigh : 0 ≤ e := by omega
    have hexp : e.toNat = k + (e - k).toNat := by omega
    rw [if_pos hlow, if_pos hhigh, hexp, Nat.pow_add, ← Nat.mul_assoc]
  · rw [if_neg hlow]
    by_cases hhigh : 0 ≤ e
    · have hexp : k = e.toNat + (-(e - k)).toNat := by omega
      rw [if_pos hhigh]
      simp only [Nat.mul_one]
      calc digits * 10 ^ k * oneUnits
          = digits * (10 ^ e.toNat * 10 ^ (-(e - k)).toNat) * oneUnits := by
            rw [← Nat.pow_add, ← hexp]
        _ = digits * 10 ^ e.toNat * oneUnits * 10 ^ (-(e - k)).toNat := by
            rw [← Nat.mul_assoc, Nat.mul_right_comm]
    · have hexp : (-(e - k)).toNat = k + (-e).toNat := by omega
      rw [if_neg hhigh]
      calc digits * 10 ^ k * oneUnits * 10 ^ (-e).toNat
          = digits * oneUnits * (10 ^ k * 10 ^ (-e).toNat) := by
            rw [Nat.mul_right_comm digits, Nat.mul_assoc]
        _ = digits * oneUnits * 10 ^ (-(e - k)).toNat := by rw [hexp, Nat.pow_add]

/-- Without its last zeros a decimal reads as the same double. -/
theorem units_trim (d : Decimal) : d.trim.units = d.units := by
  fun_induction trim d with
  | case1 d h ih =>
    have hdigits : d.digits / 10 * 10 ^ 1 = d.digits := by omega
    have hshift := units_shift (d.digits / 10) 1 (d.exponent + 1)
    rw [ih, ← hshift, hdigits]
    congr 2
    omega
  | case2 d h => rfl

/-- A decimal with places behind the point, as a quotient. -/
theorem units_neg (m k : Nat) :
    (⟨m, -(k : Int)⟩ : Decimal).units = nearest (m * oneUnits) (Nat.pow 10 k) := by
  cases k with
  | zero => simp [units, quotient, Nat.pow_eq]
  | succ k =>
    have hneg : ¬ (0 : Int) ≤ -((k + 1 : Nat) : Int) := by omega
    rw [units, quotient, if_neg hneg, Int.neg_neg, Int.toNat_natCast]

/-- The double written out in full reads as itself. -/
theorem units_exact {u : Nat} (hu : Representable u) : (exact u).units = u := by
  -- A unit has 1074 places, so over `10 ^ 1074` it is a whole number of digits.
  have hone : Nat.pow 5 1074 * oneUnits = Nat.pow 10 1074 := by decide +kernel
  have hpos : 0 < Nat.pow 10 1074 := by decide +kernel
  have hunits := units_neg (u * Nat.pow 5 1074) 1074
  rw [Nat.mul_assoc, hone] at hunits
  exact hunits.trans (nearest_mul_self hu hpos)

/-- A decimal that the search accepts reads as the double it was searched for. -/
theorem units_of_withExponent? {u : Nat} {e : Int} {d : Decimal}
    (h : withExponent? u e = some d) : d.units = u := by
  -- Of two candidates that read as `u` the nearer is taken, and either will do.
  have either : ∀ (p : Prop) [Decidable p] (a b : Decimal), a.units = u → b.units = u →
      (if p then a else b).units = u := by
    intro p _ a b ha hb
    split
    · exact ha
    · exact hb
  simp only [withExponent?] at h
  split at h
  · next hlow hhigh =>
    cases h
    exact either _ _ _ (of_decide_eq_true hlow) (of_decide_eq_true hhigh)
  · next hlow _ =>
    cases h
    exact of_decide_eq_true hlow
  · next _ hhigh =>
    cases h
    exact of_decide_eq_true hhigh
  · cases h

/-- The shortest decimal of a double reads as that double. -/
theorem units_shortest {u : Nat} (hu : Representable u) : (shortest u).units = u := by
  rw [shortest, units_trim]
  cases h : (List.range 17).findSome? fun (n : Nat) =>
      withExponent? u (decade u oneUnits - n) with
  | none =>
    -- No count of digits that is tried will do, and the double is written out in full.
    exact units_exact hu
  | some d =>
    obtain ⟨n, -, hn⟩ := List.exists_of_findSome?_eq_some h
    exact units_of_withExponent? hn

/-- A decimal without digits reads as zero. -/
theorem digits_ne_zero {d : Decimal} (h : d.units ≠ 0) : d.digits ≠ 0 := by
  intro h0
  apply h
  rw [units, quotient]
  split <;> simp only [h0, Nat.zero_mul, nearest_zero]

/-! ### The range of decimals -/

theorem digits_lt_pow_length (n : Nat) : n < 10 ^ (Nat.toDigits 10 n).length :=
  (Nat.length_toDigits_le_iff (by decide) Nat.length_toDigits_pos).mp (Nat.le_refl _)

theorem pow_length_le_digits {n : Nat} (h : n ≠ 0) :
    10 ^ ((Nat.toDigits 10 n).length - 1) ≤ n := by
  have hpos : 0 < (Nat.toDigits 10 n).length := Nat.length_toDigits_pos
  by_cases hone : (Nat.toDigits 10 n).length = 1
  · rw [hone]
    omega
  · refine Nat.le_of_not_lt fun hlt => ?_
    have := (Nat.length_toDigits_le_iff (b := 10) (by decide) (by omega)).mpr hlt
    omega

/-- The range of `Binary64.ofDecimal` is wide enough: its upper end lies above
`2 ^ 1024`, and its lower end, turned over, above the units of one. -/
theorem range_bounds : ∃ r : Nat, r = 400 ∧ overflowUnits ≤ Nat.pow 10 r * oneUnits ∧
    2 * oneUnits ≤ Nat.pow 10 r :=
  ⟨400, rfl, by decide +kernel, by decide +kernel⟩

/-- A decimal that reads as a finite double does not lie above the range. -/
theorem point_le {d : Decimal} (h0 : d.digits ≠ 0) (h : d.units < overflowUnits) :
    d.point ≤ 400 := by
  obtain ⟨r, hr, hover, -⟩ := range_bounds
  have hlt := lt_of_nearest_lt (quotient_den_pos d) h
  have hlen : 0 < (Nat.toDigits 10 d.digits).length := Nat.length_toDigits_pos
  have hdigits := pow_length_le_digits h0
  refine Int.le_of_not_gt fun hpoint => Nat.not_le_of_lt hlt ?_
  rw [Nat.pow_eq] at hover
  simp only [point, quotient, Nat.pow_eq] at hpoint ⊢
  generalize (Nat.toDigits 10 d.digits).length = len at *
  -- Above the range the first digit alone, with zeros for the others, is too large.
  split
  · have hexp : r ≤ len - 1 + d.exponent.toNat := by omega
    have hle : 10 ^ r ≤ d.digits * 10 ^ d.exponent.toNat :=
      calc 10 ^ r ≤ 10 ^ (len - 1 + d.exponent.toNat) := Nat.pow_le_pow_right (by decide) hexp
        _ = 10 ^ (len - 1) * 10 ^ d.exponent.toNat := Nat.pow_add ..
        _ ≤ d.digits * 10 ^ d.exponent.toNat := Nat.mul_le_mul_right _ hdigits
    rw [Nat.mul_one]
    exact Nat.le_trans hover (Nat.mul_le_mul_right _ hle)
  · have hexp : r + (-d.exponent).toNat ≤ len - 1 := by omega
    have hle : 10 ^ r * 10 ^ (-d.exponent).toNat ≤ d.digits :=
      calc 10 ^ r * 10 ^ (-d.exponent).toNat = 10 ^ (r + (-d.exponent).toNat) :=
            (Nat.pow_add ..).symm
        _ ≤ 10 ^ (len - 1) := Nat.pow_le_pow_right (by decide) hexp
        _ ≤ d.digits := hdigits
    calc overflowUnits * 10 ^ (-d.exponent).toNat
        ≤ 10 ^ r * oneUnits * 10 ^ (-d.exponent).toNat := Nat.mul_le_mul_right _ hover
      _ = 10 ^ r * 10 ^ (-d.exponent).toNat * oneUnits := Nat.mul_right_comm ..
      _ ≤ d.digits * oneUnits := Nat.mul_le_mul_right _ hle

/-- A decimal that reads as anything but zero does not lie below the range. -/
theorem le_point {d : Decimal} (h : d.units ≠ 0) : -400 ≤ d.point := by
  obtain ⟨r, hr, -, hone⟩ := range_bounds
  have hlt := lt_two_mul_of_nearest_ne_zero h
  have hdigits := digits_lt_pow_length d.digits
  refine Int.le_of_not_gt fun hpoint => Nat.lt_irrefl _ (Nat.lt_of_lt_of_le hlt ?_)
  rw [Nat.pow_eq] at hone
  simp only [point, quotient, Nat.pow_eq] at hpoint ⊢
  generalize (Nat.toDigits 10 d.digits).length = len at *
  -- Below the range all digits together make less than half a unit.
  rw [if_neg (by omega)]
  have hexp : len + r ≤ (-d.exponent).toNat := by omega
  calc 2 * (d.digits * oneUnits) = d.digits * (2 * oneUnits) := Nat.mul_left_comm ..
    _ ≤ 10 ^ len * 10 ^ r := Nat.mul_le_mul (Nat.le_of_lt hdigits) hone
    _ = 10 ^ (len + r) := (Nat.pow_add ..).symm
    _ ≤ 10 ^ (-d.exponent).toNat := Nat.pow_le_pow_right (by decide) hexp

end Decimal

/-- A decimal that reads as a double other than zero is read as that double. -/
theorem Binary64.ofDecimal_of_units {d : Decimal} {u : Nat} (negative : Bool)
    (hu : Representable u) (h0 : u ≠ 0) (h : d.units = u) :
    Binary64.ofDecimal negative d = .finite negative u hu := by
  subst h
  have hdigits := Decimal.digits_ne_zero h0
  have hhigh := Decimal.point_le hdigits hu.1
  have hlow := Decimal.le_point h0
  -- None of the three guards of the reader holds: no digits, above the range, below it.
  rw [Binary64.ofDecimal, if_neg hdigits, if_neg (by omega), if_neg (by omega)]
  exact Binary64.ofQuotient_of_lt negative hu.1

end LabelLayout
