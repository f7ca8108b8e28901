import Mathlib.Algebra.Ring.Nat
import LabelLayout.Binary64.Decimal

/-!
# `LabelLayout.Proofs.Binary64.Nearest`: what rounding to the nearest double keeps

`nearest` takes a quotient of units as a numerator and a denominator. Three laws
are all that the reading and writing of doubles needs from it:

* `nearest_congr`: equal quotients round alike, however they are written;
* `nearest_mul_self`: a count of units that a double holds rounds to itself;
* `two_pow_le_nearest` and `lt_two_mul_of_nearest_ne_zero`: rounding neither falls
  below a power of two that the quotient reaches, nor lifts a quotient of at most
  half a unit above zero.

`Binary64.ofInt_of_lt` and `Binary64.ofInt_of_le` say which integers have a double:
those below `2 ^ 1024 - 2 ^ 970`, the tie between the largest double and `2 ^ 1024`.
-/

set_option autoImplicit false

namespace LabelLayout

theorem spacing_pos (n : Nat) : 0 < spacing n := by
  rw [spacing, Nat.pow_eq]
  exact Nat.two_pow_pos _

/-- A quotient extended by a factor rounds to the same double. -/
theorem nearest_mul_mul (num den : Nat) {k : Nat} (hk : 0 < k) :
    nearest (num * k) (den * k) = nearest num den := by
  have hdiv : num * k / (den * k) = num / den := Nat.mul_div_mul_right _ _ hk
  have hlt : ∀ m, 2 * (num * k) < m * (den * k) ↔ 2 * num < m * den := fun m => by
    rw [← Nat.mul_assoc, ← Nat.mul_assoc]
    exact Nat.mul_lt_mul_right hk
  have heq : ∀ m, 2 * (num * k) = m * (den * k) ↔ 2 * num = m * den := fun m => by
    rw [← Nat.mul_assoc, ← Nat.mul_assoc]
    exact Nat.mul_left_inj (Nat.ne_of_gt hk)
  simp only [nearest, hdiv, hlt, heq]

/-- Equal quotients round alike. -/
theorem nearest_congr {a b c d : Nat} (hb : 0 < b) (hd : 0 < d) (h : a * d = c * b) :
    nearest a b = nearest c d := by
  -- Both are written over the product of their denominators.
  rw [← nearest_mul_mul a b hd, h, Nat.mul_comm b d, nearest_mul_mul c d hb]

/-- A multiple of its own spacing is a double already. -/
theorem nearest_one {u : Nat} (h : u % spacing u = 0) : nearest u 1 = u := by
  have hpos := spacing_pos u
  have hmul : u / spacing u * spacing u = u := Nat.div_mul_cancel (Nat.dvd_of_mod_eq_zero h)
  have hmid : (2 * (u / spacing u) + 1) * spacing u = 2 * u + spacing u := by
    rw [Nat.add_mul, Nat.mul_assoc, hmul, Nat.one_mul]
  simp only [nearest, Nat.div_one, Nat.mul_one, hmid]
  rw [if_pos (.inl (by omega)), hmul]

/-- A count of units that a double holds rounds to itself, whatever denominator it
is written over. -/
theorem nearest_mul_self {u d : Nat} (hu : Representable u) (hd : 0 < d) :
    nearest (u * d) d = u := by
  rw [nearest_congr hd Nat.one_pos (Nat.mul_one _), nearest_one hu.2]

/-- Nothing rounds to nothing. -/
theorem nearest_zero (den : Nat) : nearest 0 den = 0 := by
  have hzero : 0 / den = 0 := Nat.zero_div den
  simp only [nearest, hzero, Nat.zero_div, Nat.mul_zero, Nat.zero_mul]
  by_cases h : 0 < (0 + 1) * spacing 0 * den
  · rw [if_pos (.inl h)]
  · rw [if_pos (.inr ⟨by omega, by decide⟩)]

/-- Only what is more than half a unit rounds to anything but zero. -/
theorem lt_two_mul_of_nearest_ne_zero {num den : Nat} (h : nearest num den ≠ 0) :
    den < 2 * num := by
  by_cases hlt : num < den
  · -- Below one unit the spacing is one, and the lower neighbour is zero.
    have hzero : num / den = 0 := Nat.div_eq_of_lt hlt
    have hstep : spacing 0 = 1 := by decide
    simp only [nearest, hzero, hstep, Nat.div_one, Nat.mul_zero, Nat.zero_mul, Nat.zero_add,
      Nat.one_mul] at h
    refine Nat.lt_of_not_le fun hle => h ?_
    rw [if_pos (by rcases Nat.lt_or_eq_of_le hle with hl | he <;> simp [*])]
  · -- From one unit on the claim holds of every numerator but zero, which rounds to zero.
    have hnum : num ≠ 0 := fun h0 => h (by rw [h0, nearest_zero])
    omega

/-- The largest multiple of the spacing below a number reaches every power of two
that the number reaches. -/
theorem two_pow_le_div_mul_spacing {n k : Nat} (h : 2 ^ k ≤ n) :
    2 ^ k ≤ n / spacing n * spacing n := by
  have hn : n ≠ 0 := by
    have := Nat.two_pow_pos k
    omega
  have hlog : k ≤ n.log2 := (Nat.le_log2 hn).mpr h
  have hself : 2 ^ n.log2 ≤ n := Nat.log2_self_le hn
  rw [spacing, Nat.pow_eq]
  calc 2 ^ k ≤ 2 ^ n.log2 := Nat.pow_le_pow_right (by decide) hlog
    _ = 2 ^ n.log2 / 2 ^ (n.log2 - 52) * 2 ^ (n.log2 - 52) :=
        (Nat.div_mul_cancel (Nat.pow_dvd_pow 2 (Nat.sub_le _ _))).symm
    _ ≤ n / 2 ^ (n.log2 - 52) * 2 ^ (n.log2 - 52) :=
        Nat.mul_le_mul_right _ (Nat.div_le_div_right hself)

/-- Rounding does not fall below a power of two. -/
theorem two_pow_le_nearest {num den k : Nat} (h : 2 ^ k ≤ num / den) :
    2 ^ k ≤ nearest num den := by
  have hle := two_pow_le_div_mul_spacing h
  -- The lower neighbour reaches the power, so either neighbour does.
  simp only [nearest]
  split
  · exact hle
  · exact Nat.le_trans hle (Nat.mul_le_mul_right _ (Nat.le_succ _))

/-- One is a power of two in units, and the first magnitude without a double a much larger
one. The exponents are hidden, so that no proof evaluates the powers. -/
theorem oneUnits_eq : ∃ j k, 53 < j ∧ oneUnits = Nat.pow 2 k ∧ overflowUnits = Nat.pow 2 (j + k) :=
  ⟨1024, 1074, by decide, by decide +kernel, by decide +kernel⟩

theorem oneUnits_pos : 0 < oneUnits := by
  obtain ⟨-, k, -, hk, -⟩ := oneUnits_eq
  rw [hk, Nat.pow_eq]
  exact Nat.two_pow_pos k

/-- One has a millionth part and more that is a power of two. -/
theorem oneUnits_eq_mul : ∃ k, oneUnits = 2 ^ 20 * Nat.pow 2 k := ⟨1054, by decide +kernel⟩

/-- The least magnitude of an integer that has no double: the tie between the
largest double and `2 ^ 1024`. -/
def leastTooLarge : Nat := Nat.pow 2 1024 - Nat.pow 2 970

/-- The first magnitude without a double is a power of two, and `leastTooLarge` the
tie below it. The exponent is hidden, so that no proof evaluates the power. -/
theorem overflowUnits_eq : ∃ k, 54 ≤ k ∧ overflowUnits = Nat.pow 2 k ∧
    (Nat.pow 2 54 - 1) * Nat.pow 2 (k - 53) = 2 * leastTooLarge * oneUnits :=
  ⟨2098, by decide, by decide +kernel, by decide +kernel⟩

/-- What rounds to a finite double lies below `2 ^ 1024`. -/
theorem lt_of_nearest_lt {num den : Nat} (hden : 0 < den)
    (h : nearest num den < overflowUnits) : num < overflowUnits * den := by
  obtain ⟨k, -, hk, -⟩ := overflowUnits_eq
  rw [hk, Nat.pow_eq] at h ⊢
  rw [← Nat.div_lt_iff_lt_mul hden]
  exact Nat.lt_of_not_le fun hle => Nat.not_le_of_lt h (two_pow_le_nearest hle)

/-! ### Integers without a double -/

/-- Rounding does not pass the next multiple of the spacing. -/
theorem nearest_le_next (num den : Nat) :
    nearest num den ≤ (num / den / spacing (num / den) + 1) * spacing (num / den) := by
  simp only [nearest]
  split
  · exact Nat.mul_le_mul_right _ (Nat.le_succ _)
  · exact Nat.le_refl _

/-- In the binades below the last one the spacing is at most half of that at `2 ^ k`. -/
theorem two_mul_spacing_le {num k : Nat} (hk : 54 ≤ k) (hlow : num < 2 ^ (k - 1)) :
    2 * spacing num ≤ 2 ^ (k - 53) := by
  have hlog : num.log2 - 52 + 1 ≤ k - 53 := by
    by_cases h0 : num = 0
    · subst h0
      have : Nat.log2 0 = 0 := by decide
      omega
    · have := (Nat.log2_lt h0).mpr hlow
      omega
  calc 2 * spacing num = 2 ^ (num.log2 - 52 + 1) := by
        rw [spacing, Nat.pow_eq, Nat.pow_succ, Nat.mul_comm]
    _ ≤ 2 ^ (k - 53) := Nat.pow_le_pow_right (by decide) hlog

/-- In the last binade below `2 ^ k` it is half of that at `2 ^ k`. -/
theorem spacing_of_last_binade {num k : Nat} (hk : 54 ≤ k) (hle : 2 ^ (k - 1) ≤ num)
    (hlt : num < 2 ^ k) : spacing num = 2 ^ (k - 53) := by
  have hpos := Nat.two_pow_pos (k - 1)
  have hlog : num.log2 = k - 1 := by
    rw [Nat.log2_eq_iff (by omega), show k - 1 + 1 = k by omega]
    exact ⟨hle, hlt⟩
  rw [spacing, Nat.pow_eq, hlog, Nat.sub_sub]

/-- A count of units rounds to less than `2 ^ k` exactly when it lies below the tie
between `2 ^ k` and its lower neighbour. -/
theorem nearest_lt_two_pow_iff {num k : Nat} (hk : 54 ≤ k) :
    nearest num 1 < 2 ^ k ↔ 2 * num < (2 ^ 54 - 1) * 2 ^ (k - 53) := by
  have htop : 2 ^ k = 2 ^ 53 * 2 ^ (k - 53) := by
    rw [← Nat.pow_add]
    congr 1
    omega
  have hpos : 0 < 2 ^ (k - 53) := Nat.two_pow_pos _
  have hbelow := div_spacing_lt num
  have hup := nearest_le_next num 1
  rw [Nat.div_one] at hup
  rw [Nat.pow_eq] at hbelow
  by_cases hhigh : 2 ^ k ≤ num
  · -- What reaches the power does not round below it, and lies above the tie.
    have hle : 2 ^ k ≤ nearest num 1 := two_pow_le_nearest (by rwa [Nat.div_one])
    omega
  by_cases hlow : num < 2 ^ (k - 1)
  · -- The spacing is so small that both neighbours lie below `2 ^ k`.
    have hstep := two_mul_spacing_le hk hlow
    have hcap : (num / spacing num + 1) * spacing num ≤ 2 ^ 53 * spacing num :=
      Nat.mul_le_mul_right _ hbelow
    have hhalf : 2 ^ (k - 1) = 2 ^ 52 * 2 ^ (k - 53) := by
      rw [← Nat.pow_add]
      congr 1
      omega
    omega
  · -- The last binade below `2 ^ k`: only its largest double has `2 ^ k` above it.
    have hstep := spacing_of_last_binade hk (Nat.le_of_not_lt hlow) (Nat.lt_of_not_le hhigh)
    rw [hstep] at hbelow hup
    have hceil : num < (num / 2 ^ (k - 53) + 1) * 2 ^ (k - 53) :=
      Nat.lt_mul_of_div_lt (Nat.lt_succ_self _) hpos
    rcases Nat.lt_or_eq_of_le (Nat.le_sub_one_of_lt hbelow) with hlt | heq
    · have hnext : (num / 2 ^ (k - 53) + 1) * 2 ^ (k - 53) ≤ (2 ^ 53 - 1) * 2 ^ (k - 53) :=
        Nat.mul_le_mul_right _ hlt
      omega
    · simp only [nearest, Nat.div_one, Nat.mul_one, hstep, heq]
      by_cases htie : 2 * num < (2 ^ 54 - 1) * 2 ^ (k - 53)
      · rw [if_pos (.inl htie)]
        omega
      · -- On the tie the lower neighbour is odd, so rounding goes up from there on.
        have hnot : ¬ (2 * num < (2 * (2 ^ 53 - 1) + 1) * 2 ^ (k - 53) ∨
            2 * num = (2 * (2 ^ 53 - 1) + 1) * 2 ^ (k - 53) ∧ (2 ^ 53 - 1) % 2 = 0) := by
          rintro (h | ⟨-, h⟩)
          · exact htie h
          · exact absurd h (by decide)
        rw [if_neg hnot]
        omega

/-- A count of units rounds to a finite double exactly when it lies below `leastTooLarge`. -/
theorem nearest_lt_overflowUnits_iff (num : Nat) :
    nearest num 1 < overflowUnits ↔ num < leastTooLarge * oneUnits := by
  obtain ⟨k, hk, hover, htie⟩ := overflowUnits_eq
  rw [hover, Nat.pow_eq, nearest_lt_two_pow_iff hk]
  rw [Nat.pow_eq, Nat.pow_eq] at htie
  rw [htie, Nat.mul_assoc]
  exact Nat.mul_lt_mul_left (by decide)

/-- So an integer does exactly when its magnitude does. -/
theorem nearest_int_lt_iff (n : Int) :
    nearest (n.natAbs * oneUnits) 1 < overflowUnits ↔ n.natAbs < leastTooLarge := by
  rw [nearest_lt_overflowUnits_iff, Nat.mul_lt_mul_right oneUnits_pos]

namespace Binary64

/-- A quotient that rounds to less than `2 ^ 1024` is finite. -/
theorem ofQuotient_of_lt (negative : Bool) {num den : Nat}
    (h : nearest num den < overflowUnits) :
    ofQuotient negative num den
      = .finite negative (nearest num den) ⟨h, nearest_divisible num den⟩ := by
  rw [ofQuotient, dif_pos h]

/-- Any other is infinite. -/
theorem ofQuotient_of_not_lt (negative : Bool) {num den : Nat}
    (h : ¬ nearest num den < overflowUnits) :
    ofQuotient negative num den = .infinite negative := by
  rw [ofQuotient, dif_neg h]

/-- An integer below `leastTooLarge` has a double. -/
theorem ofInt_of_lt {n : Int} (h : n.natAbs < leastTooLarge) : ∃ x, ofInt n = .ok x := by
  rw [ofInt, ofFraction, ofQuotient_of_lt _ ((nearest_int_lt_iff n).mpr h)]
  exact ⟨_, rfl⟩

/-- An integer from `leastTooLarge` on has none. -/
theorem ofInt_of_le {n : Int} (h : leastTooLarge ≤ n.natAbs) :
    ofInt n = .error .tooLarge := by
  have hge : ¬ nearest (n.natAbs * oneUnits) 1 < overflowUnits :=
    fun hlt => Nat.not_lt_of_le h ((nearest_int_lt_iff n).mp hlt)
  rw [ofInt, ofFraction, ofQuotient_of_not_lt _ hge]
  rfl

end Binary64

end LabelLayout
