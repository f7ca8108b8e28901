import LabelLayout.Fault

/-!
# `LabelLayout.Binary64`: double precision numbers as exact integers

A finite double is a whole number of units of `2 ^ -1074`, the distance between
neighbours next to zero. `Binary64` stores that count, so comparison is
comparison of integers, and each operation is the exact one followed by one
rounding to the nearest double, ties to an even last place.

* `nearest` rounds a quotient of naturals, in units, to the spacing that doubles
  have at its size. `nearest_divisible` says the result is a multiple of its own
  spacing, which makes every result below `2 ^ 1024` `Representable`.
* Zero, subnormal and normal numbers need no cases: below `2 ^ 53` units the
  spacing is one unit.
* The sign is a field of its own, because `-0.0` is told apart from `0.0`.
-/

set_option autoImplicit false

namespace LabelLayout

/-- The distance between neighbouring doubles at `units`: the last of 53
significant binary places, and one unit where fewer are needed. -/
def spacing (units : Nat) : Nat := Nat.pow 2 (units.log2 - 52)

/-- `2 ^ 1024` in units: the first magnitude that no finite double has. It and
`oneUnits` are irreducible, so that no proof writes the power out by accident. -/
@[irreducible]
def overflowUnits : Nat := Nat.pow 2 2098

/-- One, in units. -/
@[irreducible]
def oneUnits : Nat := Nat.pow 2 1074

/-- A count of units that a finite double can hold: below `2 ^ 1024`, with at
most 53 significant binary places. -/
def Representable (units : Nat) : Prop :=
  units < overflowUnits ∧ units % spacing units = 0

instance (units : Nat) : Decidable (Representable units) :=
  inferInstanceAs (Decidable (_ ∧ _))

/-- The double nearest to the quotient `num / den` of units, a tie going to the
even multiple of the spacing. The result may lie at or above `2 ^ 1024`. -/
def nearest (num den : Nat) : Nat :=
  let step := spacing (num / den)
  let below := num / den / step
  let middle := (2 * below + 1) * step * den
  if 2 * num < middle ∨ (2 * num = middle ∧ below % 2 = 0) then below * step
  else (below + 1) * step

/-- A multiple of `2 ^ s` with at most 53 places before it is a multiple of its
own spacing. The one case that changes the spacing is the power of two that
rounding up can reach. -/
theorem mul_pow_mod_spacing (k s : Nat) (hk : k ≤ Nat.pow 2 53) :
    k * Nat.pow 2 s % spacing (k * Nat.pow 2 s) = 0 := by
  simp only [spacing, Nat.pow_eq] at hk ⊢
  have hdvd : ∀ e, e ≤ s → k * 2 ^ s % 2 ^ e = 0 := fun e he =>
    Nat.mod_eq_zero_of_dvd (Nat.dvd_trans (Nat.pow_dvd_pow 2 he) (Nat.dvd_mul_left _ _))
  by_cases h53 : k = 2 ^ 53
  · subst h53
    rw [← Nat.pow_add, Nat.log2_two_pow]
    exact Nat.mod_eq_zero_of_dvd (Nat.pow_dvd_pow 2 (by omega))
  · have hlt : k * 2 ^ s < 2 ^ (53 + s) := by
      rw [Nat.pow_add]
      exact Nat.mul_lt_mul_of_pos_right (by omega) (Nat.two_pow_pos s)
    by_cases h0 : k * 2 ^ s = 0
    · simp [h0]
    · have hlog : (k * 2 ^ s).log2 < 53 + s := (Nat.log2_lt h0).mpr hlt
      exact hdvd _ (by omega)

/-- The quotient by the spacing has at most 53 places. -/
theorem div_spacing_lt (n : Nat) : n / spacing n < Nat.pow 2 53 := by
  simp only [spacing, Nat.pow_eq]
  rw [Nat.div_lt_iff_lt_mul (Nat.two_pow_pos _), ← Nat.pow_add]
  by_cases h0 : n = 0
  · simp [h0]
  · exact (Nat.log2_lt h0).mp (by omega)

/-- Rounding lands on a multiple of the result's own spacing. -/
theorem nearest_divisible (num den : Nat) :
    nearest num den % spacing (nearest num den) = 0 := by
  have hlt := div_spacing_lt (num / den)
  simp only [nearest]
  split
  · exact mul_pow_mod_spacing _ _ (Nat.le_of_lt hlt)
  · exact mul_pow_mod_spacing _ _ hlt

/-- A double precision number: no number at all, an infinity, or a count of
units with a sign. -/
inductive Binary64 where
  | nan
  | infinite (negative : Bool)
  | finite (negative : Bool) (units : Nat) (representable : Representable units)
  deriving DecidableEq, Repr

namespace Binary64

/-- A quotient of units rounded to the nearest double; what rounds to `2 ^ 1024`
or more is infinite. -/
def ofQuotient (negative : Bool) (num den : Nat) : Binary64 :=
  if h : nearest num den < overflowUnits then
    .finite negative (nearest num den) ⟨h, nearest_divisible num den⟩
  else .infinite negative

/-- The double nearest to the fraction `num / den`. -/
def ofFraction (num : Int) (den : Nat) : Binary64 :=
  ofQuotient (decide (num < 0)) (num.natAbs * oneUnits) den

/-- No units: representable whatever the sign. -/
theorem zero_representable : Representable 0 :=
  ⟨by decide +kernel, Nat.zero_mod _⟩

def zero (negative : Bool) : Binary64 := .finite negative 0 zero_representable

instance : Inhabited Binary64 := ⟨zero false⟩

/-- A finite double; any other is the outcome of an integer too large for one. -/
def checked : Binary64 → Except Fault Binary64
  | .finite s u h => .ok (.finite s u h)
  | _ => .error .tooLarge

/-- An integer as a double, unless it rounds to an infinity. -/
def ofInt (n : Int) : Except Fault Binary64 := (ofFraction n 1).checked

/-- A count of units with its sign; both zeros give 0. -/
def signedUnits (negative : Bool) (units : Nat) : Int :=
  if negative then -(units : Int) else units

def neg : Binary64 → Binary64
  | .nan => .nan
  | .infinite s => .infinite !s
  | .finite s u h => .finite (!s) u h

def abs : Binary64 → Binary64
  | .nan => .nan
  | .infinite _ => .infinite false
  | .finite _ u h => .finite false u h

/-- A sum is negative zero only when both terms are negative. -/
def add : Binary64 → Binary64 → Binary64
  | .nan, _ => .nan
  | _, .nan => .nan
  | .infinite s, .infinite t => if s = t then .infinite s else .nan
  | .infinite s, _ => .infinite s
  | _, .infinite t => .infinite t
  | .finite s u _, .finite t v _ =>
    let sum := signedUnits s u + signedUnits t v
    if sum = 0 then zero (s && t) else ofQuotient (decide (sum < 0)) sum.natAbs 1

def sub (x y : Binary64) : Binary64 := add x (neg y)

def mul : Binary64 → Binary64 → Binary64
  | .nan, _ => .nan
  | _, .nan => .nan
  | .infinite s, .infinite t => .infinite (s != t)
  | .infinite s, .finite t v _ => if v = 0 then .nan else .infinite (s != t)
  | .finite s u _, .infinite t => if u = 0 then .nan else .infinite (s != t)
  | .finite s u _, .finite t v _ => ofQuotient (s != t) (u * v) oneUnits

/-- The quotient, a zero divisor being refused whatever is divided. -/
def div : Binary64 → Binary64 → Except Fault Binary64
  | _, .finite _ 0 _ => .error .divisionByZero
  | .nan, _ => .ok .nan
  | _, .nan => .ok .nan
  | .infinite _, .infinite _ => .ok .nan
  | .infinite s, .finite t _ _ => .ok (.infinite (s != t))
  | .finite s _ _, .infinite t => .ok (zero (s != t))
  | .finite s u _, .finite t v _ => .ok (ofQuotient (s != t) (u * oneUnits) v)

/-- The largest integer that is not above a finite number. -/
def floor : Binary64 → Except Fault Int
  | .nan => .error .notANumber
  | .infinite _ => .error .infinite
  | .finite s u _ => .ok (signedUnits s u / oneUnits)

/-- The integer that a number is exactly, if it is one. -/
def toInt? : Binary64 → Option Int
  | .finite s u _ => if u % oneUnits = 0 then some (signedUnits s u / oneUnits) else none
  | _ => none

/-- The order of a double and an integer, or of any two finite counts of units:
`none` when one side is no number. -/
def compareUnits : Binary64 → Int → Option Ordering
  | .nan, _ => none
  | .infinite s, _ => some (if s then .lt else .gt)
  | .finite s u _, n => some (compare (signedUnits s u) n)

/-- The order of two doubles, and `none` when one of them is no number. -/
def compare? : Binary64 → Binary64 → Option Ordering
  | .nan, _ => none
  | x, .finite t v _ => x.compareUnits (signedUnits t v)
  | .finite _ _ _, .infinite t => some (if t then .gt else .lt)
  | .infinite s, .infinite t => some (compare t s)
  | _, .nan => none

end Binary64

end LabelLayout
