import LabelLayout.Proofs.Binary64.Nearest

/-!
# `LabelLayout.Proofs.Binary64.Order`: doubles as signed counts of units

`Binary64.units?` is the value of a finite double, a whole number of units with its
sign, and `rounded` rounds a quotient of such numbers. Every operation on doubles is then
the exact one followed by `rounded`, and it stays finite as long as the result fits
(`Binary64.units?_mul_eq_some` and its siblings).

`rounded_mono` says that rounding keeps the order. So whatever bounds the operands of a
computation bounds its result, and a bound that a double holds is not passed.
-/

set_option autoImplicit false

namespace LabelLayout

/-! ### Rounding keeps the order -/

/-- Rounding does not pass a power of two. -/
theorem nearest_le_two_pow {num den k : Nat} (h : num / den < 2 ^ k) :
    nearest num den ≤ 2 ^ k := by
  have hlog : (num / den).log2 - 52 ≤ k := by
    by_cases h0 : num / den = 0
    · rw [h0, show Nat.log2 0 = 0 by decide]
      omega
    · have := (Nat.log2_lt h0).mpr h
      omega
  -- The spacing divides the power, so the next multiple does not pass it either.
  have hdvd : 2 ^ k / spacing (num / den) * spacing (num / den) = 2 ^ k := by
    rw [spacing, Nat.pow_eq]
    exact Nat.div_mul_cancel (Nat.pow_dvd_pow 2 hlog)
  have hbelow : num / den / spacing (num / den) < 2 ^ k / spacing (num / den) := by
    refine Nat.lt_of_mul_lt_mul_right (a := spacing (num / den)) ?_
    rw [hdvd]
    exact Nat.lt_of_le_of_lt (Nat.div_mul_le_self _ _) h
  calc nearest num den
      ≤ (num / den / spacing (num / den) + 1) * spacing (num / den) := nearest_le_next num den
    _ ≤ 2 ^ k / spacing (num / den) * spacing (num / den) := Nat.mul_le_mul_right _ hbelow
    _ = 2 ^ k := hdvd

/-- Rounding does not fall below the largest multiple of the spacing. -/
theorem le_nearest (num den : Nat) :
    num / den / spacing (num / den) * spacing (num / den) ≤ nearest num den := by
  simp only [nearest]
  split
  · exact Nat.le_refl _
  · exact Nat.mul_le_mul_right _ (Nat.le_succ _)

/-- Rounding keeps the order. -/
theorem nearest_mono {m n : Nat} (h : m ≤ n) (den : Nat) : nearest m den ≤ nearest n den := by
  have hdiv : m / den ≤ n / den := Nat.div_le_div_right h
  by_cases hlog : (m / den).log2 < (n / den).log2
  · -- A power of two lies between the quotients.
    have hn : n / den ≠ 0 := by
      intro h0
      rw [h0, show Nat.log2 0 = 0 by decide] at hlog
      omega
    have hm : m / den < 2 ^ (n / den).log2 := by
      by_cases h0 : m / den = 0
      · rw [h0]
        exact Nat.two_pow_pos _
      · exact (Nat.log2_lt h0).mp hlog
    exact Nat.le_trans (nearest_le_two_pow hm) (two_pow_le_nearest (Nat.log2_self_le hn))
  · -- Otherwise they have the same spacing, and lie between multiples of it.
    have hspacing : spacing (m / den) = spacing (n / den) := by
      have hle : (m / den).log2 ≤ (n / den).log2 := by
        by_cases h0 : m / den = 0
        · rw [h0, show Nat.log2 0 = 0 by decide]
          omega
        · have hn : n / den ≠ 0 := Nat.ne_of_gt (Nat.lt_of_lt_of_le (Nat.pos_of_ne_zero h0) hdiv)
          exact (Nat.le_log2 hn).mpr (Nat.le_trans (Nat.log2_self_le h0) hdiv)
      rw [spacing, spacing, Nat.le_antisymm hle (Nat.le_of_not_lt hlog)]
    have hbelow : m / den / spacing (n / den) ≤ n / den / spacing (n / den) :=
      Nat.div_le_div_right hdiv
    rcases Nat.lt_or_eq_of_le hbelow with hlt | heq
    · calc nearest m den
          ≤ (m / den / spacing (n / den) + 1) * spacing (n / den) := by
            rw [← hspacing]
            exact nearest_le_next m den
        _ ≤ n / den / spacing (n / den) * spacing (n / den) := Nat.mul_le_mul_right _ hlt
        _ ≤ nearest n den := le_nearest n den
    · simp only [nearest, hspacing, heq]
      split
      · next hlow =>
        split
        · exact Nat.le_refl _
        · exact Nat.mul_le_mul_right _ (Nat.le_succ _)
      · next hhigh =>
        -- The smaller one is not below the middle, so the larger one is not either.
        rw [if_neg]
        rintro (hlt | ⟨hmid, heven⟩)
        · exact hhigh (.inl (by omega))
        · refine hhigh ?_
          rcases Nat.lt_or_eq_of_le h with hlt | rfl
          · exact .inl (by omega)
          · exact .inr ⟨hmid, heven⟩

/-! ### Signed counts -/

namespace Binary64

@[simp]
theorem signedUnits_zero (s : Bool) : signedUnits s 0 = 0 := by cases s <;> rfl

@[simp]
theorem natAbs_signedUnits (s : Bool) (u : Nat) : (signedUnits s u).natAbs = u := by
  cases s <;> simp [signedUnits]

theorem signedUnits_mul (s t : Bool) (u v : Nat) :
    signedUnits s u * signedUnits t v = signedUnits (s != t) (u * v) := by
  cases s <;> cases t <;> grind [signedUnits]

/-- A count of units is the one of its magnitude under its sign. -/
theorem signedUnits_natAbs (n : Int) : signedUnits (decide (n < 0)) n.natAbs = n := by
  by_cases h : n < 0
  · simp only [signedUnits, h, decide_true, if_true]
    omega
  · simp only [signedUnits, h, decide_false, Bool.false_eq_true, if_false]
    omega

/-- A factor without a sign goes into the magnitude. -/
theorem mul_natCast_eq (n : Int) (k : Nat) :
    n * k = signedUnits (decide (n < 0)) (n.natAbs * k) := by
  have hmul := signedUnits_mul (decide (n < 0)) false n.natAbs k
  rw [signedUnits_natAbs, Bool.bne_false] at hmul
  exact hmul

/-- The units of a finite double, with their sign. -/
def units? : Binary64 → Option Int
  | .finite s u _ => some (signedUnits s u)
  | _ => none

@[simp]
theorem units?_finite (s : Bool) {u : Nat} (h : Representable u) :
    (finite s u h).units? = some (signedUnits s u) := rfl

@[simp]
theorem units?_infinite (s : Bool) : (infinite s).units? = none := rfl

@[simp]
theorem units?_nan : nan.units? = none := rfl

end Binary64

open Binary64

/-- A count of units that is below `2 ^ 1024` on either side of zero. -/
def Fits (n : Int) : Prop := n.natAbs < overflowUnits

/-- A signed quotient of units rounded to the nearest double. -/
def rounded (num : Int) (den : Nat) : Int :=
  signedUnits (decide (num < 0)) (nearest num.natAbs den)

theorem rounded_signedUnits (s : Bool) (num den : Nat) :
    rounded (signedUnits s num) den = signedUnits s (nearest num den) := by
  rw [rounded, natAbs_signedUnits]
  by_cases h0 : num = 0
  · rw [h0, nearest_zero, signedUnits_zero, signedUnits_zero]
  · have hsign : decide (signedUnits s num < 0) = s := by
      cases s
      · simp [signedUnits]
      · simpa [signedUnits] using Nat.pos_of_ne_zero h0
    rw [hsign]

theorem natAbs_rounded (num : Int) (den : Nat) :
    (rounded num den).natAbs = nearest num.natAbs den := natAbs_signedUnits _ _

@[simp]
theorem rounded_zero (den : Nat) : rounded 0 den = 0 := by
  rw [← signedUnits_zero false, rounded_signedUnits, nearest_zero]

/-- A signed quotient extended by a factor rounds to the same double. -/
theorem rounded_mul_mul (num : Int) (den : Nat) {k : Nat} (hk : 0 < k) :
    rounded (num * k) (den * k) = rounded num den := by
  rw [mul_natCast_eq, rounded_signedUnits, nearest_mul_mul _ _ hk, rounded]

/-- Rounding keeps the order, across zero too. -/
theorem rounded_mono {m n : Int} (h : m ≤ n) (den : Nat) : rounded m den ≤ rounded n den := by
  rw [rounded, rounded]
  by_cases hm : m < 0
  · by_cases hn : n < 0
    · have := nearest_mono (show n.natAbs ≤ m.natAbs by omega) den
      simp only [signedUnits, hm, hn, decide_true, if_true]
      omega
    · simp only [signedUnits, hm, hn, decide_true, decide_false, Bool.false_eq_true, if_true,
        if_false]
      omega
  · have hn : ¬ n < 0 := by omega
    have := nearest_mono (show m.natAbs ≤ n.natAbs by omega) den
    simp only [signedUnits, hm, hn, decide_false, Bool.false_eq_true, if_false]
    omega

theorem rounded_nonneg {num : Int} (h : 0 ≤ num) (den : Nat) : 0 ≤ rounded num den := by
  rw [← rounded_zero den]
  exact rounded_mono h den

/-- A count of units that a double holds rounds to itself. -/
theorem rounded_mul_self {n : Int} (h : Representable n.natAbs) {den : Nat} (hden : 0 < den) :
    rounded (n * den) den = n := by
  rw [mul_natCast_eq, rounded_signedUnits, nearest_mul_self h hden, signedUnits_natAbs]

theorem rounded_self {n : Int} (h : Representable n.natAbs) : rounded n 1 = n := by
  have hmul := rounded_mul_self h Nat.one_pos
  rwa [show n * ((1 : Nat) : Int) = n from Int.mul_one n] at hmul

/-! ### Operations -/

theorem fits_zero : Fits 0 := zero_representable.1

/-- An integer of at most 53 places is a double. -/
theorem representable_int {n : Int} (h : n.natAbs ≤ 2 ^ 53) :
    Representable (n * oneUnits).natAbs := by
  obtain ⟨j, k, hj, hk, hover⟩ := oneUnits_eq
  rw [Int.natAbs_mul, Int.natAbs_natCast, Representable, hover, hk]
  constructor
  · rw [Nat.pow_eq, Nat.pow_eq, Nat.pow_add]
    refine Nat.mul_lt_mul_of_lt_of_le (Nat.lt_of_le_of_lt h ?_) (Nat.le_refl _) (Nat.two_pow_pos k)
    exact Nat.pow_lt_pow_right (by decide) hj
  · exact mul_pow_mod_spacing _ _ h

theorem representable_nat {n : Nat} (h : n ≤ 2 ^ 53) : Representable (n * oneUnits) := by
  have hint := representable_int (n := n) (by rwa [Int.natAbs_natCast])
  rwa [Int.natAbs_mul, Int.natAbs_natCast, Int.natAbs_natCast] at hint

/-- What is at most such an integer fits. -/
theorem fits_of_le_int {n : Int} {bound : Nat} (hbound : bound ≤ 2 ^ 53)
    (h : n.natAbs ≤ bound * oneUnits) : Fits n :=
  Nat.lt_of_le_of_lt h (representable_nat hbound).1

/-- A quotient that is at most a double rounds to no more. -/
theorem natAbs_rounded_le_double {num : Int} {den bound : Nat} (hden : 0 < den)
    (hbound : Representable bound) (h : num.natAbs ≤ bound * den) :
    (rounded num den).natAbs ≤ bound := by
  rw [natAbs_rounded]
  calc nearest num.natAbs den ≤ nearest (bound * den) den := nearest_mono h den
    _ = bound := nearest_mul_self hbound hden

/-- So does one that is at most an integer of at most 53 places. -/
theorem natAbs_rounded_le {num : Int} {den bound : Nat} (hden : 0 < den) (hbound : bound ≤ 2 ^ 53)
    (h : num.natAbs ≤ bound * oneUnits * den) : (rounded num den).natAbs ≤ bound * oneUnits :=
  natAbs_rounded_le_double hden (representable_nat hbound) h

/-- Numbers within bounds have a rounded product within the product of the bounds. -/
theorem natAbs_rounded_mul_le {m n : Int} {p q : Nat} (hm : m.natAbs ≤ p * oneUnits)
    (hn : n.natAbs ≤ q * oneUnits) (hpq : p * q ≤ 2 ^ 53) :
    (rounded (m * n) oneUnits).natAbs ≤ p * q * oneUnits := by
  refine natAbs_rounded_le oneUnits_pos hpq ?_
  calc (m * n).natAbs = m.natAbs * n.natAbs := Int.natAbs_mul m n
    _ ≤ p * oneUnits * (q * oneUnits) := Nat.mul_le_mul hm hn
    _ = p * q * oneUnits * oneUnits := by ac_rfl

/-- Such an integer rounds to itself. -/
theorem rounded_int {n : Int} (h : n.natAbs ≤ 2 ^ 53) : rounded (n * oneUnits) 1 = n * oneUnits :=
  rounded_self (representable_int h)

namespace Binary64

/-- A finite double holds its units. -/
theorem representable_of_units? {x : Binary64} {m : Int} (h : x.units? = some m) :
    Representable m.natAbs := by
  cases x with
  | finite s u hu =>
    cases h
    rwa [natAbs_signedUnits]
  | _ => cases h

theorem fits_of_units? {x : Binary64} {m : Int} (h : x.units? = some m) : Fits m :=
  (representable_of_units? h).1

/-- The units of a rounded quotient, if they fit. -/
theorem units?_ofQuotient_eq_some {s : Bool} {num den : Nat} {k : Int} :
    (ofQuotient s num den).units? = some k ↔
      Fits (rounded (signedUnits s num) den) ∧ rounded (signedUnits s num) den = k := by
  rw [rounded_signedUnits, Fits, natAbs_signedUnits]
  by_cases h : nearest num den < overflowUnits
  · have hunits : (ofQuotient s num den).units? = some (signedUnits s (nearest num den)) := by
      rw [ofQuotient_of_lt s h]
      rfl
    rw [hunits, Option.some.injEq]
    exact (and_iff_right h).symm
  · rw [ofQuotient_of_not_lt s h]
    simp [h]

/-- A product is finite when its factors are and it fits. -/
theorem units?_mul_eq_some {x y : Binary64} {k : Int} :
    (x.mul y).units? = some k ↔ ∃ m n, x.units? = some m ∧ y.units? = some n ∧
      Fits (rounded (m * n) oneUnits) ∧ rounded (m * n) oneUnits = k := by
  cases x with
  | finite s u hu =>
    cases y with
    | finite t v hv =>
      simp only [mul, units?_ofQuotient_eq_some, ← signedUnits_mul, units?_finite,
        Option.some.injEq, exists_and_left, exists_eq_left']
    | nan => simp [mul]
    | infinite t =>
      simp only [mul]
      split <;> simp
  | nan => simp [mul]
  | infinite s =>
    cases y with
    | finite t v hv =>
      simp only [mul]
      split <;> simp
    | nan => simp [mul]
    | infinite t => simp [mul]

/-- A sum is finite when its terms are and it fits. -/
theorem units?_add_eq_some {x y : Binary64} {k : Int} :
    (x.add y).units? = some k ↔ ∃ m n, x.units? = some m ∧ y.units? = some n ∧
      Fits (rounded (m + n) 1) ∧ rounded (m + n) 1 = k := by
  cases x with
  | finite s u hu =>
    cases y with
    | finite t v hv =>
      simp only [units?_finite, Option.some.injEq, exists_and_left, exists_eq_left', add]
      by_cases h0 : signedUnits s u + signedUnits t v = 0
      · rw [if_pos h0, h0, rounded_zero, zero, units?_finite, signedUnits_zero, Option.some.injEq]
        exact (and_iff_right fits_zero).symm
      · rw [if_neg h0, units?_ofQuotient_eq_some, signedUnits_natAbs]
    | nan => simp [add]
    | infinite t => simp [add]
  | nan => simp [add]
  | infinite s =>
    cases y with
    | finite t v hv => simp [add]
    | nan => simp [add]
    | infinite t =>
      simp only [add]
      split <;> simp

/-- The double of a fraction is finite when it fits. -/
theorem units?_ofFraction_eq_some {num k : Int} {den : Nat} :
    (ofFraction num den).units? = some k ↔
      Fits (rounded (num * oneUnits) den) ∧ rounded (num * oneUnits) den = k := by
  rw [ofFraction, units?_ofQuotient_eq_some, ← mul_natCast_eq]

/-- A sum that is not negative and does not fit is infinite. -/
theorem add_of_not_fits {x y : Binary64} {m n : Int} (hx : x.units? = some m)
    (hy : y.units? = some n) (hsum : 0 ≤ m + n) (h : ¬ Fits (rounded (m + n) 1)) :
    x.add y = .infinite false := by
  cases x with
  | finite s u hu =>
    cases y with
    | finite t v hv =>
      cases hx
      cases hy
      have hne : signedUnits s u + signedUnits t v ≠ 0 := by
        intro h0
        rw [h0, rounded_zero] at h
        exact h fits_zero
      have hsign : decide (signedUnits s u + signedUnits t v < 0) = false := by
        rw [decide_eq_false_iff_not]
        omega
      rw [Fits, natAbs_rounded] at h
      simp only [add]
      rw [if_neg hne, ofQuotient_of_not_lt _ h, hsign]
    | _ => cases hy
  | _ => cases hx

/-- Only a division by zero fails. -/
theorem exists_div_of_ne {y : Binary64} (h : y.units? ≠ some 0) (x : Binary64) :
    ∃ z, x.div y = .ok z := by
  cases y with
  | finite t v hv =>
    cases v with
    | zero =>
      rw [units?_finite, signedUnits_zero] at h
      exact absurd rfl h
    | succ v => cases x <;> exact ⟨_, rfl⟩
  | nan => cases x <;> exact ⟨_, rfl⟩
  | infinite t => cases x <;> exact ⟨_, rfl⟩

/-- A quotient by a positive double is finite when the dividend is and it fits. -/
theorem exists_div {y : Binary64} {v : Nat} (hy : y.units? = some (v : Int)) (hv : 0 < v)
    (x : Binary64) :
    ∃ z, x.div y = .ok z ∧ ∀ k, z.units? = some k ↔
      ∃ m, x.units? = some m ∧ Fits (rounded (m * oneUnits) v) ∧
        rounded (m * oneUnits) v = k := by
  obtain ⟨w, rfl⟩ := Nat.exists_eq_succ_of_ne_zero (Nat.ne_of_gt hv)
  -- A double that is positive has its sign off.
  obtain ⟨h, rfl⟩ : ∃ h, y = .finite false (w + 1) h := by
    cases y with
    | finite t u hu =>
      have hunits : signedUnits t u = (w + 1 : Nat) := Option.some.inj hy
      cases t with
      | true =>
        simp only [signedUnits, if_true] at hunits
        omega
      | false =>
        obtain rfl : u = w + 1 := Int.ofNat.inj hunits
        exact ⟨hu, rfl⟩
    | _ => cases hy
  cases x with
  | finite s u hu =>
    refine ⟨_, rfl, fun k => ?_⟩
    have hmul : signedUnits s u * oneUnits = signedUnits (s != false) (u * oneUnits) :=
      signedUnits_mul s false u oneUnits
    simp only [units?_ofQuotient_eq_some, ← hmul, units?_finite, Option.some.injEq,
      exists_eq_left']
  | nan => exact ⟨.nan, rfl, fun k => by simp⟩
  | infinite s => exact ⟨.infinite (s != false), rfl, fun k => by simp⟩

/-- What is checked is finite. -/
theorem exists_checked {x : Binary64} {k : Int} :
    (∃ y, x.checked = .ok y ∧ y.units? = some k) ↔ x.units? = some k := by
  cases x <;> simp [checked]

/-- Finite doubles have an integer part. -/
theorem floor_eq_ok {x : Binary64} {n : Int} :
    x.floor = .ok n ↔ ∃ u, x.units? = some u ∧ u / oneUnits = n := by
  cases x <;> simp [floor]

/-- A double of `2 ^ 52` or more is an integer. -/
theorem oneUnits_dvd {u : Nat} (h : Representable u) (hu : 2 ^ 52 * oneUnits ≤ u) :
    oneUnits ∣ u := by
  obtain ⟨-, k, -, hk, -⟩ := oneUnits_eq
  rw [hk, Nat.pow_eq, ← Nat.pow_add] at hu
  have hne : u ≠ 0 := Nat.ne_of_gt (Nat.lt_of_lt_of_le (Nat.two_pow_pos _) hu)
  have hlog : 52 + k ≤ u.log2 := (Nat.le_log2 hne).mpr hu
  have hspacing : 2 ^ k ∣ spacing u := by
    rw [spacing, Nat.pow_eq]
    exact Nat.pow_dvd_pow 2 (by omega)
  rw [hk, Nat.pow_eq]
  exact Nat.dvd_trans hspacing (Nat.dvd_of_mod_eq_zero h.2)

end Binary64

/-- What rounding gives is a double, if it fits. -/
theorem Fits.representable {num : Int} {den : Nat} (h : Fits (rounded num den)) :
    Representable (rounded num den).natAbs := by
  rw [Fits] at h
  rw [natAbs_rounded] at h ⊢
  exact ⟨h, nearest_divisible _ _⟩

/-- A count of units rounds to a double when it lies below `leastTooLarge`. -/
theorem fits_rounded_iff {m : Int} :
    Fits (rounded m 1) ↔ m.natAbs < leastTooLarge * oneUnits := by
  rw [Fits, natAbs_rounded, nearest_lt_overflowUnits_iff]

/-- The largest double below `2 ^ k` is one step less than that. -/
theorem le_largest {u k : Nat} (hk : 54 ≤ k) (hlt : u < 2 ^ k) (hmod : u % spacing u = 0) :
    u ≤ (2 ^ 53 - 1) * 2 ^ (k - 53) := by
  by_cases hhigh : 2 ^ (k - 1) ≤ u
  · have hbelow := div_spacing_lt u
    rw [spacing_of_last_binade hk hhigh hlt, Nat.pow_eq] at hbelow
    rw [spacing_of_last_binade hk hhigh hlt] at hmod
    rw [← Nat.div_mul_cancel (Nat.dvd_of_mod_eq_zero hmod)]
    exact Nat.mul_le_mul_right _ (Nat.le_sub_one_of_lt hbelow)
  · have hhalf : 2 ^ (k - 1) = 2 ^ 52 * 2 ^ (k - 53) := by
      rw [← Nat.pow_add]
      congr 1
      omega
    omega

/-- There is room for nearly one more on top of any double. -/
theorem Representable.add_lt {u v : Nat} (h : Representable u) (hv : v < oneUnits) :
    u + v < leastTooLarge * oneUnits := by
  obtain ⟨k, hk, hover, htie⟩ := overflowUnits_eq
  obtain ⟨j, i, hj, hone, hover'⟩ := oneUnits_eq
  rw [hover, Nat.pow_eq, Nat.pow_eq] at hover'
  obtain rfl : k = j + i := Nat.pow_right_injective (Nat.le_refl 2) hover'
  -- The step between the largest doubles is at least two.
  have hstep : 2 * oneUnits ≤ 2 ^ (j + i - 53) := by
    rw [hone, Nat.pow_eq, ← Nat.pow_succ']
    exact Nat.pow_le_pow_right (by decide) (by omega)
  have hle := le_largest hk (by simpa only [hover, Nat.pow_eq] using h.1) h.2
  rw [Nat.pow_eq, Nat.pow_eq, Nat.mul_assoc 2] at htie
  have hroom : 2 * (u + v) < (2 ^ 54 - 1) * 2 ^ (j + i - 53) := by
    clear htie
    omega
  exact Nat.lt_of_mul_lt_mul_left (htie ▸ hroom)

/-- One is made of equal parts, of which up to as many as make one are a double. -/
theorem exists_part : ∃ part, oneUnits = 2 ^ 20 * part ∧
    ∀ n ≤ 2 ^ 20, Representable (n * part) := by
  obtain ⟨k, hk⟩ := oneUnits_eq_mul
  have hlt := (representable_nat (show 1 ≤ 2 ^ 53 by decide)).1
  rw [Nat.one_mul, hk] at hlt
  have hplaces : 2 ^ 20 ≤ 2 ^ 53 := by decide
  refine ⟨Nat.pow 2 k, hk, fun n hn => ⟨?_, mul_pow_mod_spacing n k (Nat.le_trans hn hplaces)⟩⟩
  exact Nat.lt_of_le_of_lt (Nat.mul_le_mul_right _ hn) hlt

/-- The integer part of a double has a double. -/
theorem natAbs_ediv_lt {u : Int} (h : Representable u.natAbs) :
    (u / oneUnits).natAbs < leastTooLarge := by
  have hone : (0 : Int) < oneUnits := by exact_mod_cast oneUnits_pos
  by_cases hbig : 2 ^ 52 * oneUnits ≤ u.natAbs
  · -- The double is its own integer part.
    have hdvd : (oneUnits : Int) ∣ u := Int.ofNat_dvd_left.mpr (oneUnits_dvd h hbig)
    have hmul : (u / oneUnits).natAbs * oneUnits = u.natAbs := by
      rw [← Int.natAbs_natCast oneUnits, ← Int.natAbs_mul, Int.natAbs_natCast,
        Int.ediv_mul_cancel hdvd]
    rw [← nearest_int_lt_iff, hmul, nearest_one h.2]
    exact h.1
  · have hrep : Representable ((2 ^ 52 : Int) * oneUnits).natAbs := representable_int (by decide)
    rw [Int.natAbs_mul, Int.natAbs_natCast] at hrep
    have hsmall : (2 ^ 52 : Int).natAbs < leastTooLarge := by
      rw [← nearest_int_lt_iff, nearest_one hrep.2]
      exact hrep.1
    have hlow : -2 ^ 52 ≤ u / oneUnits := (Int.le_ediv_iff_mul_le hone).mpr (by omega)
    have hhigh : u / oneUnits < 2 ^ 52 := (Int.ediv_lt_iff_lt_mul hone).mpr (by omega)
    omega

end LabelLayout
