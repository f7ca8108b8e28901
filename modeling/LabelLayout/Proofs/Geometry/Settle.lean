import LabelLayout.Geometry.Snap
import LabelLayout.Geometry.Translate
import LabelLayout.Proofs.Print.Units

/-!
# `LabelLayout.Proofs.Geometry.Settle`: coordinates that come to lie on a grid

A coordinate is divided by the grid, and the number of the nearest line is multiplied by it
again. On numbers of ordinary size and a grid that is not too fine the quotient is a double of
ordinary size (`Number.exists_div_le`), so it has a nearest line. The grid may be as wide as it
likes: a line of it that is not the first one lies within reach only when the grid does.

`Number.IsLight` is what such a computation keeps up. It bounds the integers, which must be
converted wherever they meet a double, and leaves the doubles alone, which may overflow and
still are doubles. A line of the grid is light (`Geometry.exists_snap`), and light numbers move an
element of light coordinates (`Element.exists_translate`).
-/

set_option autoImplicit false

namespace LabelLayout

open Binary64

namespace Number

variable {a b v g : Number} {m : Int}

/-! ### Light numbers -/

/-- An integer within a bound, or any double. -/
def IsLight (bound : Nat) : Number → Prop
  | .int n => n.natAbs ≤ bound
  | .float _ => True

theorem IsWithin.isLight {bound : Nat} (h : a.IsWithin bound) : a.IsLight bound := by
  cases a with
  | int n => exact isWithin_int.mp h
  | float x => trivial

theorem IsLight.exists_toBinary64 {p : Nat} (h : a.IsLight p) (hp : p ≤ 2 ^ 53) :
    ∃ x, a.toBinary64 = .ok x := by
  cases a with
  | int n =>
    obtain ⟨_, ⟨x, hx, -⟩, -⟩ := (isWithin_int.mpr h).exists_isNear hp
    exact ⟨x, hx⟩
  | float x => exact ⟨x, rfl⟩

/-- Light numbers have a light outcome under an operation that is exact on integers, adds to them no
more than both, and is one of doubles otherwise. -/
theorem IsLight.exists_outcome {f : Number → Number → Except Fault Number} {i : Int → Int → Int}
    (op : Binary64 → Binary64 → Binary64) {p q : Nat}
    (hints : ∀ m n, f (.int m) (.int n) = .ok (.int (i m n)))
    (hle : ∀ m n, (i m n).natAbs ≤ m.natAbs + n.natAbs)
    (hfloats : ∀ a b, (∀ m n, a = .int m → b ≠ .int n) →
      f a b = onFloats (fun x y => .ok (op x y)) a b)
    (ha : a.IsLight p) (hb : b.IsLight q) (hp : p ≤ 2 ^ 53) (hq : q ≤ 2 ^ 53) :
    ∃ c, f a b = .ok c ∧ c.IsLight (p + q) := by
  by_cases hint : ∃ m n, a = .int m ∧ b = .int n
  · obtain ⟨m, n, rfl, rfl⟩ := hint
    exact ⟨_, hints m n, Nat.le_trans (hle m n) (Nat.add_le_add ha hb)⟩
  · obtain ⟨x, hx⟩ := ha.exists_toBinary64 hp
    obtain ⟨y, hy⟩ := hb.exists_toBinary64 hq
    refine ⟨.float (op x y), ?_, trivial⟩
    rw [hfloats a b fun m n hm hn => hint ⟨m, n, hm, hn⟩, onFloats, hx, ok_bind, hy, ok_bind,
      ok_bind]
    rfl

/-- Light numbers have a sum that is light. -/
theorem IsLight.exists_add {p q : Nat} (ha : a.IsLight p) (hb : b.IsLight q) (hp : p ≤ 2 ^ 53)
    (hq : q ≤ 2 ^ 53) : ∃ c, Number.add a b = .ok c ∧ c.IsLight (p + q) := by
  refine IsLight.exists_outcome Binary64.add (fun _ _ => rfl) Int.natAbs_add_le (fun a b h => ?_)
    ha hb hp hq
  rw [Number.add]
  exact h

/-- So they have a difference. -/
theorem IsLight.exists_sub {p q : Nat} (ha : a.IsLight p) (hb : b.IsLight q) (hp : p ≤ 2 ^ 53)
    (hq : q ≤ 2 ^ 53) : ∃ c, Number.sub a b = .ok c ∧ c.IsLight (p + q) := by
  refine IsLight.exists_outcome Binary64.sub (fun _ _ => rfl) Int.natAbs_sub_le (fun a b h => ?_)
    ha hb hp hq
  rw [Number.sub]
  exact h

/-! ### Quotients -/

/-- No conversion to a double is in the way of the quotient `v / g`. -/
def CanDivide (v g : Number) : Prop :=
  (∃ k p : Int, v = .int k ∧ g = .int p) ∨ ∃ y, g.toBinary64 = .ok y

/-- Integers have a quotient within any double that bounds it. -/
theorem exists_divInt_le {k p : Int} {high : Nat} (hp : 0 < p) (hhigh : Representable high)
    (h : k.natAbs * oneUnits ≤ high * p.natAbs) :
    ∃ q m, divInt k p = .ok q ∧ q.IsNear m ∧ m.natAbs ≤ high := by
  have hround : (rounded (signedUnits (decide (k < 0) != decide (p < 0)) (k.natAbs * oneUnits))
      p.natAbs).natAbs ≤ high :=
    natAbs_rounded_le_double (Int.natAbs_pos.mpr hp.ne') hhigh (by rwa [natAbs_signedUnits])
  obtain ⟨z, hz, hunits⟩ := exists_checked.mpr
    (units?_ofQuotient_eq_some.mpr ⟨Nat.lt_of_le_of_lt hround hhigh.1, rfl⟩)
  refine ⟨.float z, _, ?_, isNear_float.mpr hunits, hround⟩
  rw [divInt, if_neg hp.ne', hz]
  rfl

/-- So do doubles. -/
theorem exists_divFloats_le {x y : Binary64} {n : Int} {w high : Nat} (hx : x.units? = some n)
    (hy : y.units? = some (w : Int)) (hw : 0 < w) (hhigh : Representable high)
    (h : n.natAbs * oneUnits ≤ high * w) :
    ∃ z m, x.div y = .ok z ∧ z.units? = some m ∧ m.natAbs ≤ high := by
  have hround : (rounded (n * oneUnits) w).natAbs ≤ high :=
    natAbs_rounded_le_double hw hhigh (by rwa [Int.natAbs_mul, Int.natAbs_natCast])
  obtain ⟨z, hz, hunits⟩ := Binary64.exists_div hy hw x
  have hfits : Fits (rounded (n * oneUnits) w) := Nat.lt_of_le_of_lt hround hhigh.1
  exact ⟨z, _, hz, (hunits _).mpr ⟨n, hx, hfits, rfl⟩, hround⟩

/-- A number within a bound has a quotient by a number that is not below a double, within any
double that bounds the quotient of the bounds. -/
theorem exists_div_le (low high : Nat) {bound : Nat} (hv : v.IsWithin bound)
    (hbound : bound ≤ 2 ^ 53) (hg : g.units? = some m) (hlow : (low : Int) ≤ m) (hlow0 : 0 < low)
    (hlowDouble : Representable low) (hhigh : Representable high)
    (hle : bound * oneUnits * oneUnits ≤ high * low) (hdivide : CanDivide v g) :
    ∃ q k, Number.div v g = .ok q ∧ q.IsNear k ∧ k.natAbs ≤ high := by
  by_cases hint : ∃ k p : Int, v = .int k ∧ g = .int p
  · obtain ⟨k, p, rfl, rfl⟩ := hint
    cases hg
    rw [isWithin_int] at hv
    have hone : (0 : Int) < oneUnits := by exact_mod_cast oneUnits_pos
    have hp : 0 < p := Int.pos_of_mul_pos_left (by omega) hone
    have hlowNat : low ≤ p.natAbs * oneUnits := by
      zify
      rwa [abs_of_pos hp]
    refine exists_divInt_le hp hhigh (Nat.le_of_mul_le_mul_right ?_ oneUnits_pos)
    calc k.natAbs * oneUnits * oneUnits
        ≤ bound * oneUnits * oneUnits := Nat.mul_le_mul_right _ (Nat.mul_le_mul_right _ hv)
      _ ≤ high * low := hle
      _ ≤ high * (p.natAbs * oneUnits) := Nat.mul_le_mul_left _ hlowNat
      _ = high * p.natAbs * oneUnits := (Nat.mul_assoc _ _ _).symm
  · obtain ⟨y, hy⟩ := hdivide.resolve_left hint
    obtain ⟨n, ⟨x, hx, hn⟩, hnBound⟩ := hv.exists_isNear hbound
    -- What the divisor is not below, its double is not below either.
    have hlowRound : (low : Int) ≤ rounded m 1 := by
      rw [← rounded_self (n := low) (by rwa [Int.natAbs_natCast])]
      exact rounded_mono hlow 1
    obtain ⟨w, hw⟩ := Int.eq_ofNat_of_zero_le (Int.le_trans (Int.natCast_nonneg low) hlowRound)
    have hlowNat : low ≤ w := by omega
    obtain ⟨z, k, hz, hk, hkBound⟩ := exists_divFloats_le hn
      ((units?_of_toBinary64 hy hg).trans (congrArg some hw)) (Nat.lt_of_lt_of_le hlow0 hlowNat)
      hhigh (by
        calc n.natAbs * oneUnits ≤ bound * oneUnits * oneUnits := Nat.mul_le_mul_right _ hnBound
          _ ≤ high * low := hle
          _ ≤ high * w := Nat.mul_le_mul_left _ hlowNat)
    refine ⟨.float z, k, ?_, isNear_float.mpr hk, hkBound⟩
    rw [div_eq fun k p hk hp => hint ⟨k, p, hk, hp⟩, hx, ok_bind, hy, ok_bind, hz, ok_bind]

end Number

namespace Geometry

open Print

variable {v g : Number} {m : Int}

/-! ### The nearest line -/

/-- Steps that are a double have a nearest line. -/
theorem gridLine_eq_ok {q : Number} {bound : Nat} (hdiv : Number.div v g = .ok q)
    (hq : q.IsNear m) (hm : m.natAbs ≤ bound * oneUnits) (hbound : bound < 2 ^ 53) :
    gridLine v g = .ok (wholePixels m) := by
  show (Number.div v g >>= fun steps =>
    (Scalar.add steps (Scalar.constant 1 2) >>= Scalar.floor)) = _
  rw [hdiv, ok_bind]
  exact floor_add_half_eq_ok.mpr ⟨m, hq, fits_half hm hbound, rfl⟩

/-! ### Grids -/

/-- A millionth in units. -/
theorem units?_millionth :
    (Number.fraction 1 1000000).units? = some (nearest oneUnits 1000000 : Int) := by
  have hrounded : rounded (1 * oneUnits) 1000000 = nearest oneUnits 1000000 := by
    rw [Int.one_mul]
    exact rounded_signedUnits false oneUnits 1000000
  have hle : nearest oneUnits 1000000 ≤ 1 * oneUnits := by
    have hround : (rounded oneUnits 1000000).natAbs ≤ 1 * oneUnits :=
      natAbs_rounded_le (by decide) (by decide) (by rw [Int.natAbs_natCast]; omega)
    rwa [natAbs_rounded, Int.natAbs_natCast] at hround
  rw [Number.fraction, Number.units?, units?_ofFraction_eq_some, hrounded]
  exact ⟨fits_of_le_int (show 1 ≤ 2 ^ 53 by decide) (by rwa [Int.natAbs_natCast]), rfl⟩

theorem oneUnits_le_millionth : oneUnits ≤ 2 ^ 20 * nearest oneUnits 1000000 := by
  obtain ⟨part, hone, hdouble⟩ := exists_part
  have hpart : Representable part := by simpa only [Nat.one_mul] using hdouble 1 (by decide)
  have hle : part ≤ nearest oneUnits 1000000 := by
    rw [← nearest_mul_self hpart (show 0 < 1000000 by decide)]
    exact nearest_mono (by omega) _
  omega

/-- The lines of a grid of whole numbers that are nearest to the numbers of a reach lie near that
reach: a grid much wider than it has the first line nearest. -/
theorem exists_gridLine_int {p : Int} (hv : v.IsWithin 2000000) (hp : 0 < p)
    (hdivide : v.CanDivide (.int p)) :
    ∃ line : Int, gridLine v (.int p) = .ok line ∧ (line * p).natAbs ≤ 2 ^ 44 := by
  have hone : (0 : Int) ≤ oneUnits := Int.natCast_nonneg oneUnits
  have hlow (n : Nat) (hn : (n : Int) ≤ p) : ((n * oneUnits : Nat) : Int) ≤ p * oneUnits := by
    rw [Nat.cast_mul]
    exact Int.mul_le_mul_of_nonneg_right hn hone
  by_cases hwide : 8000000 ≤ p
  · -- The quotient is a quarter at most.
    obtain ⟨part, hpart, hdouble⟩ := exists_part
    obtain ⟨q, k, hdiv, hq, hk⟩ := Number.exists_div_le (8000000 * oneUnits) (2 ^ 18 * part) hv
      (by decide) rfl (hlow 8000000 hwide) (Nat.mul_pos (by decide) oneUnits_pos)
      (representable_nat (by decide)) (hdouble _ (by decide))
      (by rw [← Nat.mul_assoc]; exact Nat.mul_le_mul_right _ (by omega)) hdivide
    refine ⟨0, ?_, by simp⟩
    have hzero : wholePixels k = 0 := wholePixels_eq_zero (by omega)
    rw [gridLine_eq_ok hdiv hq (show _ ≤ 1 * oneUnits by omega) (by decide), hzero]
  · obtain ⟨q, k, hdiv, hq, hk⟩ := Number.exists_div_le (1 * oneUnits) (2000000 * oneUnits) hv
      (by decide) rfl (hlow 1 (by omega)) (Nat.mul_pos (by decide) oneUnits_pos)
      (representable_nat (by decide)) (representable_nat (by decide)) (by rw [Nat.one_mul]) hdivide
    refine ⟨_, gridLine_eq_ok hdiv hq hk (by decide), ?_⟩
    calc (wholePixels k * p).natAbs = (wholePixels k).natAbs * p.natAbs := Int.natAbs_mul _ _
      _ ≤ 2000001 * 8000000 :=
          Nat.mul_le_mul (natAbs_wholePixels_le hk (by decide)) (by omega)
      _ ≤ 2 ^ 44 := by decide

/-- A grid that is a double, a millionth or more, has a line nearest to every number of a reach. -/
theorem exists_gridLine_float {y : Binary64} (hv : v.IsWithin 2000000)
    (hg : (Number.fraction 1 1000000).le (.float y) = true) :
    ∃ line : Int, gridLine v (.float y) = .ok line ∧ line.natAbs ≤ 2 ^ 53 := by
  rcases Number.eq_or_units?_of_le units?_millionth hg with hinfinite | ⟨n, hn, hle⟩
  · -- An infinite grid takes every number to its first line.
    cases hinfinite
    obtain ⟨k, ⟨x, hx, hk⟩, -⟩ := hv.exists_isNear (by decide)
    obtain ⟨z, hz, hzero⟩ : ∃ z, x.div (.infinite false) = .ok z ∧ z.units? = some 0 := by
      cases x with
      | finite s u hu => exact ⟨_, rfl, signedUnits_zero _ ▸ rfl⟩
      | _ => cases hk
    have hdiv : Number.div v (.float (.infinite false)) = .ok (.float z) := by
      rw [Number.div_float, hx, ok_bind, hz, ok_bind]
    have hnone : (0 : Int).natAbs ≤ 0 * oneUnits := Nat.zero_le _
    refine ⟨_, gridLine_eq_ok hdiv (Number.isNear_float.mpr hzero) hnone (by decide), ?_⟩
    exact Nat.le_trans (natAbs_wholePixels_le hnone (by decide)) (by decide)
  · have hmillionth := oneUnits_le_millionth
    have hpos := oneUnits_pos
    have hrep := representable_of_units? (x := ofFraction 1 1000000) units?_millionth
    rw [Int.natAbs_natCast] at hrep
    have hquotient : 2000000 * oneUnits * oneUnits ≤
        2000000 * 2 ^ 20 * oneUnits * nearest oneUnits 1000000 := by
      calc 2000000 * oneUnits * oneUnits
          ≤ 2000000 * oneUnits * (2 ^ 20 * nearest oneUnits 1000000) :=
            Nat.mul_le_mul_left _ hmillionth
        _ = 2000000 * 2 ^ 20 * oneUnits * nearest oneUnits 1000000 := by ring
    obtain ⟨q, k, hdiv, hq, hk⟩ := Number.exists_div_le _ _ hv (by decide) hn hle (by omega) hrep
      (representable_nat (by decide)) hquotient (.inr ⟨y, rfl⟩)
    refine ⟨_, gridLine_eq_ok hdiv hq hk (by decide), ?_⟩
    exact Nat.le_trans (natAbs_wholePixels_le hk (by decide)) (by decide)

/-- A grid of a millionth or more is wider than nothing. -/
theorem le_zero_eq_false (hg : (Number.fraction 1 1000000).le g = true) :
    g.le (.int 0) = false := by
  rcases Number.eq_or_units?_of_le units?_millionth hg with rfl | ⟨n, hn, hle⟩
  · rfl
  · have hmillionth := oneUnits_le_millionth
    have hpos := oneUnits_pos
    rw [Bool.eq_false_iff, ne_eq, Number.le_iff hn rfl, Int.zero_mul]
    omega

/-- Every number of a reach snaps to a grid of a millionth or more, if nothing is in the way of
the quotient. -/
theorem exists_snap (hv : v.IsWithin 2000000) (hg : (Number.fraction 1 1000000).le g = true)
    (hdivide : v.CanDivide g) : ∃ r, snap v g = .ok r ∧ r.IsLight (2 ^ 44) := by
  have hpositive := le_zero_eq_false hg
  have hsnap : snap v g = gridLine v g >>= fun line => Scalar.mul (.int line) g := by
    show (if g.le (.int 0) = true then throw .gridNotPositive else _ : Except Fault Number) = _
    rw [hpositive, if_neg Bool.false_ne_true]
    rfl
  rw [hsnap]
  cases g with
  | int p =>
    rw [Bool.eq_false_iff, ne_eq, Number.int_le_int, Int.not_le] at hpositive
    obtain ⟨line, hline, hle⟩ := exists_gridLine_int hv hpositive hdivide
    exact ⟨.int (line * p), by rw [hline]; rfl, hle⟩
  | float y =>
    obtain ⟨line, hline, hle⟩ := exists_gridLine_float hv hg
    obtain ⟨x, hx⟩ := (Number.IsLight.exists_toBinary64 (a := .int line) hle (Nat.le_refl _))
    refine ⟨.float (x.mul y), ?_, trivial⟩
    rw [hline, ok_bind]
    show Number.mul _ _ = _
    rw [Number.mul_float, hx, ok_bind]

/-- A grid of whole numbers that has no double takes no double to a line. -/
theorem eq_int_of_snap {p : Int} (hp : leastTooLarge ≤ p) {r : Number}
    (h : snap v (.int p) = .ok r) : ∃ n : Int, v = .int n := by
  cases v with
  | int n => exact ⟨n, rfl⟩
  | float x =>
    simp only [snap] at h
    split at h
    · cases h
    · obtain ⟨line, hline, -⟩ := bind_eq_ok.mp h
      obtain ⟨steps, hsteps, -⟩ := bind_eq_ok.mp hline
      have hlarge : (Number.int p).toBinary64 = .error .tooLarge := ofInt_of_le (by omega)
      simp only [Scalar.div, Number.div, Number.onFloats, hlarge] at hsteps
      cases hsteps

end Geometry

/-! ### Elements -/

namespace Element

/-- A property holds of the coordinates of an element: those of its origin, and of the other end
of a line. -/
structure HasCoordinates (P : Number → Prop) (e : Element Number) : Prop where
  x : P e.frame.x
  y : P e.frame.y
  ends : ∀ line, e.body = .line line → P line.x2 ∧ P line.y2

variable {e : Element Number} {P Q : Number → Prop}

theorem HasCoordinates.mono (h : e.HasCoordinates P) (hPQ : ∀ a, P a → Q a) :
    e.HasCoordinates Q where
  x := hPQ _ h.x
  y := hPQ _ h.y
  ends line hline := (h.ends line hline).imp (hPQ _) (hPQ _)

/-- Light numbers move an element of light coordinates. -/
theorem exists_translate {dx dy : Number} {p q : Nat} (he : e.HasCoordinates (Number.IsLight p))
    (hdx : dx.IsLight q) (hdy : dy.IsLight q) (hpq : p + q ≤ 2 ^ 53) :
    ∃ moved, e.translate dx dy = .ok moved := by
  obtain ⟨frame, body⟩ := e
  have hadd {a d : Number} (ha : a.IsLight p) (hd : d.IsLight q) :
      ∃ c, Scalar.add a d = .ok c ∧ c.IsLight (p + q) :=
    ha.exists_add hd (by omega) (by omega)
  have hsub {a b : Number} (ha : a.IsLight (p + q)) (hb : b.IsLight (p + q)) :
      ∃ c, Scalar.sub a b = .ok c := by
    obtain ⟨c, hc, -⟩ := ha.exists_sub hb hpq hpq
    exact ⟨c, hc⟩
  obtain ⟨x, hx, hxLight⟩ := hadd he.x hdx
  obtain ⟨y, hy, hyLight⟩ := hadd he.y hdy
  rw [translate]
  split
  · exact ⟨_, rfl⟩
  · cases body with
    | line line =>
      obtain ⟨hx2, hy2⟩ := he.ends line rfl
      obtain ⟨x2, hx2, hx2Light⟩ := hadd hx2 hdx
      obtain ⟨y2, hy2, hy2Light⟩ := hadd hy2 hdy
      obtain ⟨width, hwidth⟩ := hsub hx2Light hxLight
      obtain ⟨height, hheight⟩ := hsub hy2Light hyLight
      simp only [shift, hx, hy, hx2, hy2, ok_bind, Frame.spanning, hwidth, hheight]
      exact ⟨_, rfl⟩
    | _ =>
      simp only [shift, hx, hy, ok_bind]
      exact ⟨_, rfl⟩

end Element

end LabelLayout
