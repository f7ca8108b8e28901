import LabelLayout.Scalar
import LabelLayout.Proofs.Binary64.Order
import LabelLayout.Proofs.Except

/-!
# `LabelLayout.Proofs.Number`: the order of numbers, and their doubles

`Number.units?` is the exact value of a number in units of a double. Numbers compare as
their values do (`Number.lt_iff`, `Number.le_iff`), whichever of them are integers.

Arithmetic on mixed operands goes through doubles. `Number.IsNear x m` says that the
double of `x` is finite and holds `m` units, and `Number.isNear_iff` that `m` is the
value of `x` rounded.
-/

set_option autoImplicit false

namespace LabelLayout.Number

open Binary64

/-- The exact value of a number in units, if it is finite. -/
def units? : Number → Option Int
  | .int n => some (n * oneUnits)
  | .float x => x.units?

/-! ### Order -/

variable {a b : Number} {m n : Int}

/-- Numbers compare as their values do. -/
theorem compare?_eq (ha : a.units? = some m) (hb : b.units? = some n) :
    a.compare? b = some (compare m n) := by
  match a, b with
  | .int p, .int q =>
    cases ha
    cases hb
    have hone : (0 : Int) < oneUnits := by exact_mod_cast oneUnits_pos
    simp only [compare?, Int.compare_eq_ite_lt, Int.mul_lt_mul_right hone]
  | .int p, .float (.finite t v hv) =>
    cases ha
    cases hb
    simp only [compare?, compareUnits, Option.map_some, Int.compare_swap]
  | .float (.finite s u hu), .int q =>
    cases ha
    cases hb
    rfl
  | .float (.finite s u hu), .float (.finite t v hv) =>
    cases ha
    cases hb
    rfl

theorem lt_iff (ha : a.units? = some m) (hb : b.units? = some n) : a.lt b = true ↔ m < n := by
  rw [lt, compare?_eq ha hb, ← Int.compare_eq_lt]
  simp

theorem le_iff (ha : a.units? = some m) (hb : b.units? = some n) : a.le b = true ↔ m ≤ n := by
  rw [le, compare?_eq ha hb, Int.le_iff_lt_or_eq, ← Int.compare_eq_lt, ← Int.compare_eq_eq]
  simp

/-- Numbers that are lesser are at most. -/
theorem le_of_lt (h : a.lt b = true) : a.le b = true := by
  rw [lt] at h
  rw [le, h, Bool.true_or]

/-- Of two finite numbers one is at most the other. -/
theorem le_of_not_le (ha : a.units? = some m) (hb : b.units? = some n) (h : a.le b = false) :
    b.le a = true := by
  have hnot : ¬ m ≤ n := by
    rw [← le_iff ha hb, h]
    decide
  rw [le_iff hb ha]
  omega

/-- What is at least a finite number is finite itself or positively infinite. -/
theorem eq_or_units?_of_le (ha : a.units? = some m) (h : a.le b = true) :
    b = .float (.infinite false) ∨ ∃ n, b.units? = some n ∧ m ≤ n := by
  cases hb : b.units? with
  | some n => exact .inr ⟨n, rfl, (le_iff ha hb).mp h⟩
  | none =>
    cases b with
    | int q => cases hb
    | float y =>
      -- The order is that of an integer or a finite double and `y`.
      have hle : (∃ p : Int, (Number.int p).le (.float y) = true) ∨
          ∃ s u hu, (Number.float (.finite s u hu)).le (.float y) = true := by
        cases a with
        | int p => exact .inl ⟨p, h⟩
        | float x =>
          cases x with
          | finite s u hu => exact .inr ⟨s, u, hu, h⟩
          | _ => cases ha
      cases y with
      | finite t v hv => cases hb
      | nan => rcases hle with ⟨p, hp⟩ | ⟨s, u, hu, hx⟩ <;> contradiction
      | infinite t =>
        cases t with
        | false => exact .inl rfl
        | true => rcases hle with ⟨p, hp⟩ | ⟨s, u, hu, hx⟩ <;> contradiction

/-- An integer is at most an integer when it is. -/
theorem int_le_int {p q : Int} : (Number.int p).le (.int q) = true ↔ p ≤ q := by
  have hone : (0 : Int) < oneUnits := by exact_mod_cast oneUnits_pos
  rw [le_iff rfl rfl]
  exact Int.mul_le_mul_right hone

theorem int_lt_int {p q : Int} : (Number.int p).lt (.int q) = true ↔ p < q := by
  have hone : (0 : Int) < oneUnits := by exact_mod_cast oneUnits_pos
  rw [lt_iff rfl rfl]
  exact Int.mul_lt_mul_right hone

theorem min_int {p q : Int} : Scalar.min (.int p) (.int q) = Number.int (min p q) := by
  have hlt : Scalar.lt (Number.int q) (.int p) = true ↔ q < p := int_lt_int
  rw [Scalar.min]
  split
  · next h =>
    rw [hlt] at h
    rw [Int.min_eq_right (Int.le_of_lt h)]
  · next h =>
    rw [hlt] at h
    rw [Int.min_eq_left (Int.not_lt.mp h)]

theorem max_int {p q : Int} : Scalar.max (.int p) (.int q) = Number.int (max p q) := by
  have hlt : Scalar.lt (Number.int p) (.int q) = true ↔ p < q := int_lt_int
  rw [Scalar.max]
  split
  · next h =>
    rw [hlt] at h
    rw [Int.max_eq_right (Int.le_of_lt h)]
  · next h =>
    rw [hlt] at h
    rw [Int.max_eq_left (Int.not_lt.mp h)]

/-! ### Doubles -/

/-- The double of a number is finite and holds so many units. -/
def IsNear (x : Number) (m : Int) : Prop := ∃ y, x.toBinary64 = .ok y ∧ y.units? = some m

/-- The double of a number holds its value, rounded. -/
theorem isNear_iff {x : Number} :
    x.IsNear m ↔ ∃ k, x.units? = some k ∧ Fits (rounded k 1) ∧ rounded k 1 = m := by
  cases x with
  | int n =>
    simp only [IsNear, toBinary64, ofInt, exists_checked, units?_ofFraction_eq_some, units?,
      Option.some.injEq, exists_eq_left']
  | float x =>
    simp only [IsNear, toBinary64, Except.ok.injEq, exists_eq_left', units?]
    -- A double is its own rounding.
    have hself : ∀ k, x.units? = some k → Fits (rounded k 1) ∧ rounded k 1 = k := by
      intro k hk
      rw [rounded_self (representable_of_units? hk)]
      exact ⟨fits_of_units? hk, rfl⟩
    constructor
    · intro h
      exact ⟨m, h, hself m h⟩
    · rintro ⟨k, hk, -, rfl⟩
      rw [(hself k hk).2]
      exact hk

theorem isNear_float {x : Binary64} : (Number.float x).IsNear m ↔ x.units? = some m := by
  simp only [IsNear, toBinary64, Except.ok.injEq, exists_eq_left']

/-- The double of a finite number holds its value, rounded. -/
theorem units?_of_toBinary64 {y : Binary64} (hy : a.toBinary64 = .ok y) (hm : a.units? = some m) :
    y.units? = some (rounded m 1) := by
  obtain ⟨k, hk⟩ : ∃ k, y.units? = some k := by
    cases a with
    | int n =>
      rw [toBinary64, ofInt] at hy
      cases hx : ofFraction n 1 with
      | finite s u hu =>
        rw [hx] at hy
        cases hy
        exact ⟨_, rfl⟩
      | _ =>
        rw [hx] at hy
        cases hy
    | float x =>
      cases hy
      exact ⟨m, hm⟩
  obtain ⟨m', hm', -, rfl⟩ := isNear_iff.mp ⟨y, hy, hk⟩
  cases hm.symm.trans hm'
  exact hk

/-- A product of two numbers that are not both integers is one of doubles. -/
theorem mul_eq {a b : Number} (h : ∀ p q, a = .int p → b ≠ .int q) :
    mul a b = (a.toBinary64 >>= fun x => b.toBinary64 >>= fun y => .ok (.float (x.mul y))) := by
  rw [mul, onFloats]
  · rfl
  · exact h

/-- So is a sum. -/
theorem add_eq {a b : Number} (h : ∀ p q, a = .int p → b ≠ .int q) :
    add a b = (a.toBinary64 >>= fun x => b.toBinary64 >>= fun y => .ok (.float (x.add y))) := by
  rw [add, onFloats]
  · rfl
  · exact h

/-- So is a quotient. -/
theorem div_eq (h : ∀ p q, a = .int p → b ≠ .int q) :
    div a b = (a.toBinary64 >>= fun x => b.toBinary64 >>= fun y =>
      x.div y >>= fun z => .ok (.float z)) := by
  rw [div, onFloats]
  · rfl
  · exact h

/-- A sum is an integer when both terms are. -/
theorem add_eq_int {n : Int} (h : Number.add a b = .ok (.int n)) :
    (∃ k : Int, a = .int k) ∧ ∃ l : Int, b = .int l := by
  by_cases hint : ∃ k l, a = .int k ∧ b = .int l
  · obtain ⟨k, l, rfl, rfl⟩ := hint
    exact ⟨⟨k, rfl⟩, l, rfl⟩
  · simp only [add_eq fun k l hk hl => hint ⟨k, l, hk, hl⟩, bind_eq_ok, Except.ok.injEq,
      reduceCtorEq, and_false, exists_false] at h

theorem float_mul (x : Binary64) (a : Number) :
    mul (.float x) a = (a.toBinary64 >>= fun y => .ok (.float (x.mul y))) := by
  rw [mul_eq (fun _ _ h => by cases h), toBinary64, ok_bind]

theorem mul_float (a : Number) (y : Binary64) :
    mul a (.float y) = (a.toBinary64 >>= fun x => .ok (.float (x.mul y))) := by
  rw [mul_eq (fun _ _ _ h => by cases h)]
  simp only [toBinary64, ok_bind]

theorem add_float (a : Number) (y : Binary64) :
    add a (.float y) = (a.toBinary64 >>= fun x => .ok (.float (x.add y))) := by
  rw [add_eq (fun _ _ _ h => by cases h)]
  simp only [toBinary64, ok_bind]

theorem div_float (a : Number) (y : Binary64) :
    div a (.float y) = (a.toBinary64 >>= fun x => (x.div y >>= fun z => .ok (.float z))) := by
  rw [div_eq (fun _ _ _ h => by cases h)]
  simp only [toBinary64, ok_bind]

/-- An integer that is small enough to have a double. -/
def IsWhole (x : Number) : Prop := ∃ n : Int, x = .int n ∧ n.natAbs < leastTooLarge

theorem IsWhole.min {x y : Number} (hx : x.IsWhole) (hy : y.IsWhole) :
    (Scalar.min x y).IsWhole := by
  rw [Scalar.min]
  split
  · exact hy
  · exact hx

theorem IsWhole.exists_toBinary64 {x : Number} (h : x.IsWhole) : ∃ y, x.toBinary64 = .ok y := by
  obtain ⟨k, rfl, hk⟩ := h
  exact ofInt_of_lt hk

/-- Any number can be added to it. -/
theorem IsWhole.exists_add {x : Number} (h : x.IsWhole) (a : Number) : ∃ c, x.add a = .ok c := by
  cases a with
  | int n =>
    obtain ⟨k, rfl, -⟩ := h
    exact ⟨_, rfl⟩
  | float y =>
    obtain ⟨z, hz⟩ := h.exists_toBinary64
    exact ⟨_, by rw [add_float, hz, ok_bind]⟩

/-- A number that has no double is too large. -/
theorem failsWith_toBinary64 (x : Number) : FailsWith (· = .tooLarge) x.toBinary64 := by
  cases x with
  | int n =>
    show FailsWith _ (ofFraction n 1).checked
    cases ofFraction n 1 with
    | finite => exact failsWith_pure _
    | _ => exact fun f hf => (Except.error.inj hf).symm
  | float y => exact failsWith_pure y

theorem failsWith_add (a b : Number) : FailsWith (· = .tooLarge) (a.add b) := by
  by_cases hint : ∃ k l, a = .int k ∧ b = .int l
  · obtain ⟨k, l, rfl, rfl⟩ := hint
    exact failsWith_pure _
  · rw [add_eq fun k l hk hl => hint ⟨k, l, hk, hl⟩]
    exact (failsWith_toBinary64 a).bind fun _ => (failsWith_toBinary64 b).bind fun _ =>
      failsWith_pure _

/-- A number with a double has a quotient by a positive integer. -/
theorem exists_div {x : Number} (h : ∃ y, x.toBinary64 = .ok y) {n : Int} (hn : 0 < n) :
    ∃ z, div x (.fraction n 1) = .ok (.float z) := by
  obtain ⟨y, hy⟩ := h
  have hne : (ofFraction n 1).units? ≠ some 0 := by
    intro h0
    have hle := rounded_mono (Int.mul_le_mul_of_nonneg_right (show 1 ≤ n from hn)
      (Int.natCast_nonneg oneUnits)) 1
    have hone : (0 : Int) < oneUnits := by exact_mod_cast oneUnits_pos
    rw [rounded_int (by decide), (units?_ofFraction_eq_some.mp h0).2] at hle
    omega
  obtain ⟨z, hz⟩ := exists_div_of_ne hne y
  refine ⟨z, ?_⟩
  rw [fraction, div_float, hy, ok_bind, hz, ok_bind]

/-- A number with a double has a value. -/
theorem IsNear.exists_units {x : Number} (h : x.IsNear m) : ∃ k, x.units? = some k := by
  obtain ⟨k, hk, -⟩ := isNear_iff.mp h
  exact ⟨k, hk⟩

/-- The units of a number's double are those of a double. -/
theorem IsNear.representable {x : Number} (h : x.IsNear m) : Representable m.natAbs := by
  obtain ⟨y, -, hy⟩ := h
  exact representable_of_units? hy

/-- The double of a number is determined by the number. -/
theorem IsNear.unique {x : Number} (hm : x.IsNear m) (hn : x.IsNear n) : m = n := by
  obtain ⟨y, hy, hm⟩ := hm
  obtain ⟨z, hz, hn⟩ := hn
  cases hy.symm.trans hz
  exact Option.some.inj (hm.symm.trans hn)

/-- A number that is at most an integer of at most 53 places rounds to no more. -/
theorem IsNear.le_int {x : Number} {k : Int} (hx : x.IsNear m) (hk : k.natAbs ≤ 2 ^ 53)
    (h : x.le (.int k) = true) : m ≤ k * oneUnits := by
  obtain ⟨u, hu, -, rfl⟩ := isNear_iff.mp hx
  rw [← rounded_int hk]
  exact rounded_mono ((le_iff hu rfl).mp h) 1

/-- A number that is at least an integer of at most 53 places rounds to no less. -/
theorem IsNear.int_le {x : Number} {k : Int} (hx : x.IsNear m) (hk : k.natAbs ≤ 2 ^ 53)
    (h : (Number.int k).le x = true) : k * oneUnits ≤ m := by
  obtain ⟨u, hu, -, rfl⟩ := isNear_iff.mp hx
  rw [← rounded_int hk]
  exact rounded_mono ((le_iff rfl hu).mp h) 1

/-- A number that is at least zero rounds to no less. -/
theorem IsNear.nonneg {x : Number} (hx : x.IsNear m) (h : (Number.int 0).le x = true) : 0 ≤ m := by
  have hle := hx.int_le (by decide) h
  rwa [Int.zero_mul] at hle

/-! ### Bounds -/

/-- A number that is a double as it is: any but an integer of too many binary places. -/
def IsDouble : Number → Prop
  | .int n => Representable (n * oneUnits).natAbs
  | .float _ => True

/-- A product of doubles is their product rounded once, whichever of them are integers. -/
theorem IsNear.mul {a b c : Number} {k : Int} (ha : a.IsNear m) (hb : b.IsNear n)
    (hda : a.IsDouble) (hdb : b.IsDouble) (h : Number.mul a b = .ok c) (hc : c.IsNear k) :
    k = rounded (m * n) oneUnits := by
  by_cases hint : ∃ p q, a = .int p ∧ b = .int q
  · obtain ⟨p, q, rfl, rfl⟩ := hint
    cases h
    obtain ⟨_, hp, -, rfl⟩ := isNear_iff.mp ha
    obtain ⟨_, hq, -, rfl⟩ := isNear_iff.mp hb
    obtain ⟨_, hpq, -, rfl⟩ := isNear_iff.mp hc
    cases hp
    cases hq
    cases hpq
    rw [rounded_self hda, rounded_self hdb]
    have hmul := rounded_mul_mul (p * q * oneUnits) 1 oneUnits_pos
    rw [Nat.one_mul] at hmul
    rw [← hmul]
    congr 1
    simp only [Int.mul_assoc, Int.mul_left_comm, Int.mul_comm]
  · rw [mul_eq fun p q hp hq => hint ⟨p, q, hp, hq⟩] at h
    obtain ⟨x, hx, hm⟩ := ha
    obtain ⟨y, hy, hn⟩ := hb
    rw [hx, ok_bind, hy, ok_bind] at h
    cases h
    obtain ⟨_, _, hm', hn', -, rfl⟩ := units?_mul_eq_some.mp (isNear_float.mp hc)
    cases hm.symm.trans hm'
    cases hn.symm.trans hn'
    rfl

/-- A finite number that is no further from zero than a bound. -/
def IsWithin (bound : Nat) (x : Number) : Prop :=
  ∃ m, x.units? = some m ∧ m.natAbs ≤ bound * oneUnits

theorem isWithin_int {bound : Nat} {n : Int} : (int n).IsWithin bound ↔ n.natAbs ≤ bound := by
  simp only [IsWithin, units?, Option.some.injEq, exists_eq_left', Int.natAbs_mul,
    Int.natAbs_natCast, Nat.mul_le_mul_right_iff oneUnits_pos]

/-- A number is within a bound when its magnitude is at most the bound. -/
theorem isWithin_of_abs_le {bound : Nat} {x : Number} (h : x.abs.le (.int bound) = true) :
    x.IsWithin bound := by
  match x with
  | .int n =>
    rw [abs, int_le_int] at h
    exact isWithin_int.mpr (by omega)
  | .float (.finite s u hu) =>
    refine ⟨signedUnits s u, rfl, ?_⟩
    have hle := (le_iff (m := u) (n := bound * oneUnits) rfl rfl).mp h
    rw [natAbs_signedUnits]
    exact_mod_cast hle
  | .float (.infinite s) => cases h
  | .float .nan => cases h

/-- A number within a bound of 53 places has a double within that bound. -/
theorem IsWithin.exists_isNear {bound : Nat} {x : Number} (h : x.IsWithin bound)
    (hbound : bound ≤ 2 ^ 53) : ∃ m, x.IsNear m ∧ m.natAbs ≤ bound * oneUnits := by
  obtain ⟨k, hk, hle⟩ := h
  have hround : (rounded k 1).natAbs ≤ bound * oneUnits :=
    natAbs_rounded_le Nat.one_pos hbound (by rwa [Nat.mul_one])
  exact ⟨rounded k 1, isNear_iff.mpr ⟨k, hk, fits_of_le_int hbound hround, rfl⟩, hround⟩

/-- A number within such a bound has a product with any double. -/
theorem IsWithin.exists_mul_float {bound : Nat} {x : Number} (h : x.IsWithin bound)
    (hbound : bound ≤ 2 ^ 53) (z : Binary64) : ∃ c, Scalar.mul x (.float z) = .ok c := by
  obtain ⟨_, ⟨y, hy, -⟩, -⟩ := h.exists_isNear hbound
  refine ⟨.float (y.mul z), ?_⟩
  show mul x (.float z) = _
  rw [mul_float, hy, ok_bind]

/-- Numbers within bounds have a product within the product of the bounds. -/
theorem IsWithin.exists_mul {p q : Nat} (ha : a.IsWithin p) (hb : b.IsWithin q) (hp : p ≤ 2 ^ 53)
    (hq : q ≤ 2 ^ 53) (hpq : p * q ≤ 2 ^ 53) : ∃ c, mul a b = .ok c ∧ c.IsWithin (p * q) := by
  by_cases hint : ∃ k l, a = .int k ∧ b = .int l
  · obtain ⟨k, l, rfl, rfl⟩ := hint
    rw [isWithin_int] at ha hb
    refine ⟨.int (k * l), rfl, isWithin_int.mpr ?_⟩
    rw [Int.natAbs_mul]
    exact Nat.mul_le_mul ha hb
  · obtain ⟨m, ⟨x, hx, hm⟩, hmp⟩ := ha.exists_isNear hp
    obtain ⟨n, ⟨y, hy, hn⟩, hnq⟩ := hb.exists_isNear hq
    have hround := natAbs_rounded_mul_le hmp hnq hpq
    refine ⟨.float (x.mul y), ?_, _, ?_, hround⟩
    · rw [mul_eq fun k l hk hl => hint ⟨k, l, hk, hl⟩, hx, ok_bind, hy, ok_bind]
    · exact units?_mul_eq_some.mpr ⟨m, n, hm, hn, fits_of_le_int hpq hround, rfl⟩

/-- Numbers within bounds have a sum within the sum of the bounds. -/
theorem IsWithin.exists_add {p q : Nat} (ha : a.IsWithin p) (hb : b.IsWithin q)
    (hpq : p + q ≤ 2 ^ 53) : ∃ c, Number.add a b = .ok c ∧ c.IsWithin (p + q) := by
  by_cases hint : ∃ k l, a = .int k ∧ b = .int l
  · obtain ⟨k, l, rfl, rfl⟩ := hint
    rw [isWithin_int] at ha hb
    exact ⟨.int (k + l), rfl, isWithin_int.mpr
      (Nat.le_trans (Int.natAbs_add_le k l) (Nat.add_le_add ha hb))⟩
  · obtain ⟨m, ⟨x, hx, hm⟩, hmp⟩ := ha.exists_isNear (by omega)
    obtain ⟨n, ⟨y, hy, hn⟩, hnq⟩ := hb.exists_isNear (by omega)
    have hround : (rounded (m + n) 1).natAbs ≤ (p + q) * oneUnits := by
      refine natAbs_rounded_le Nat.one_pos hpq ?_
      rw [Nat.mul_one, Nat.add_mul]
      exact Nat.le_trans (Int.natAbs_add_le m n) (Nat.add_le_add hmp hnq)
    refine ⟨.float (x.add y), ?_, _, ?_, hround⟩
    · rw [add_eq fun k l hk hl => hint ⟨k, l, hk, hl⟩, hx, ok_bind, hy, ok_bind]
    · exact units?_add_eq_some.mpr ⟨m, n, hm, hn, fits_of_le_int hpq hround, rfl⟩

/-- Terms that are not negative are bounded by what bounds their sum. -/
theorem IsNear.le_of_add_le {a b c : Number} {k : Int} (ha : a.IsNear m) (hb : b.IsNear n)
    (h0a : (Number.int 0).le a = true) (h0b : (Number.int 0).le b = true)
    (h : Number.add a b = .ok c) (hk : k.natAbs ≤ 2 ^ 53) (hc : c.le (.int k) = true) :
    m ≤ k * oneUnits ∧ n ≤ k * oneUnits := by
  by_cases hint : ∃ p q, a = .int p ∧ b = .int q
  · obtain ⟨p, q, rfl, rfl⟩ := hint
    cases h
    rw [int_le_int] at h0a h0b hc
    exact ⟨ha.le_int hk (int_le_int.mpr (by omega)), hb.le_int hk (int_le_int.mpr (by omega))⟩
  · rw [add_eq fun p q hp hq => hint ⟨p, q, hp, hq⟩] at h
    have h0m := ha.nonneg h0a
    have h0n := hb.nonneg h0b
    obtain ⟨x, hx, hm⟩ := ha
    obtain ⟨y, hy, hn⟩ := hb
    rw [hx, ok_bind, hy, ok_bind] at h
    cases h
    by_cases hfits : Fits (rounded (m + n) 1)
    · -- Each term is its own rounding, and does not pass the one of the sum.
      have hunits : (Number.float (x.add y)).units? = some (rounded (m + n) 1) :=
        units?_add_eq_some.mpr ⟨m, n, hm, hn, hfits, rfl⟩
      have hsum := (le_iff hunits rfl).mp hc
      constructor
      · rw [← rounded_self (representable_of_units? hm)]
        exact Int.le_trans (rounded_mono (by omega) 1) hsum
      · rw [← rounded_self (representable_of_units? hn)]
        exact Int.le_trans (rounded_mono (by omega) 1) hsum
    · rw [add_of_not_fits hm hn (by omega) hfits] at hc
      cases hc

/-- What is at most the smaller of two numbers is at most each. -/
theorem le_min {c : Number} {k : Int} (hc : c.units? = some k) (ha : a.units? = some m)
    (hb : b.units? = some n) (h : c.le (Scalar.min a b) = true) :
    c.le a = true ∧ c.le b = true := by
  have hlt : Scalar.lt b a = true ↔ n < m := lt_iff hb ha
  rw [le_iff hc ha, le_iff hc hb]
  rw [Scalar.min] at h
  split at h
  · next hba =>
    rw [hlt] at hba
    have := (le_iff hc hb).mp h
    omega
  · next hba =>
    rw [hlt] at hba
    have := (le_iff hc ha).mp h
    omega

/-- What is at least the larger of two numbers is at least each. -/
theorem max_le {c : Number} {k : Int} (hc : c.units? = some k) (ha : a.units? = some m)
    (hb : b.units? = some n) (h : (Scalar.max a b).le c = true) :
    a.le c = true ∧ b.le c = true := by
  have hlt : Scalar.lt a b = true ↔ m < n := lt_iff ha hb
  rw [le_iff ha hc, le_iff hb hc]
  rw [Scalar.max] at h
  split at h
  · next hab =>
    rw [hlt] at hab
    have := (le_iff hb hc).mp h
    omega
  · next hab =>
    rw [hlt] at hab
    have := (le_iff ha hc).mp h
    omega

end LabelLayout.Number
