import LabelLayout.Proofs.Number
import LabelLayout.Proofs.Scalar
import Mathlib.Algebra.BigOperators.Group.List.Basic
import Mathlib.Tactic.Linarith

/-!
# `LabelLayout.Proofs.Scalar.Reading`: scalars read as rational numbers

Geometry is written over `Scalar`, and what it promises is said about the values of its
numbers. A `Scalar.Reading` is a way to read the scalars it covers as rational numbers under
which sums, differences, magnitudes and comparisons are exact. Two of them are total: the
rationals themselves (`Reading.rational`), and the integers among the numbers of a design
(`Reading.integer`), which do not round. So one proof about a reading covers both what is
computed over the rationals and what is computed on whole coordinates.

`Yields` is what a computation over a reading gives: a result with a property. Under a
reading whose operations may fail it may fail as well.
-/

set_option autoImplicit false

namespace LabelLayout

/-! ### What a computation yields -/

section

variable {ε α β γ : Type} {mayFail : Prop} {P Q : α → Prop}

/-- The computation gives a result of which `P` holds, or it fails and may. -/
def Yields (mayFail : Prop) (P : α → Prop) : Except ε α → Prop
  | .ok a => P a
  | .error _ => mayFail

theorem yields_ok {a : α} (h : P a) : Yields mayFail P (.ok a : Except ε α) := h

theorem Yields.of_eq_ok {x : Except ε α} {a : α} (h : Yields mayFail P x) (hx : x = .ok a) :
    P a := by
  subst hx
  exact h

/-- A computation that may not fail gives a result. -/
theorem Yields.exists_ok {x : Except ε α} (h : Yields mayFail P x) (hfail : ¬ mayFail) :
    ∃ a, x = .ok a ∧ P a := by
  cases x with
  | ok a => exact ⟨a, rfl, h⟩
  | error e => exact absurd h hfail

theorem Yields.mono {x : Except ε α} (h : Yields mayFail P x) (hPQ : ∀ a, P a → Q a) :
    Yields mayFail Q x := by
  cases x with
  | ok a => exact hPQ a h
  | error e => exact h

theorem Yields.bind {R : β → Prop} {x : Except ε α} {f : α → Except ε β}
    (h : Yields mayFail P x) (hf : ∀ a, P a → Yields mayFail R (f a)) :
    Yields mayFail R (x >>= f) := by
  cases x with
  | ok a => exact hf a h
  | error e => exact h

/-- What stands for items in their order yields for each of them what it yields by itself. -/
theorem yields_mapM_of_forall₂ {R : α → β → Prop} {S : α → γ → Prop} {f : β → Except ε γ}
    {xs : List α} {ys : List β} (h : List.Forall₂ R xs ys)
    (hf : ∀ x y, R x y → Yields mayFail (S x) (f y)) :
    Yields mayFail (List.Forall₂ S xs) (ys.mapM f) := by
  induction h with
  | nil => exact yields_ok .nil
  | @cons x y xs ys hxy _ ih =>
    rw [List.mapM_cons]
    refine (hf x y hxy).bind fun z hz => ?_
    refine ih.bind fun zs hzs => ?_
    exact yields_ok (.cons hz hzs)

/-- So do the items themselves. -/
theorem yields_mapM {R : α → β → Prop} {f : α → Except ε β} {xs : List α}
    (h : ∀ x ∈ xs, Yields mayFail (R x) (f x)) :
    Yields mayFail (List.Forall₂ R xs) (xs.mapM f) := by
  have hself : List.Forall₂ (fun x y => x = y ∧ x ∈ xs) xs xs :=
    List.forall₂_same.mpr fun x hx => ⟨rfl, hx⟩
  refine yields_mapM_of_forall₂ hself ?_
  rintro x _ ⟨rfl, hx⟩
  exact h x hx

end

/-! ### Readings -/

namespace Scalar

/-- A way to read scalars as rational numbers. On the scalars that it covers, comparison is
that of their values, and an operation gives the exact value or, if it may, fails. -/
structure Reading (α : Type) [Scalar α] where
  covers : α → Prop
  value : α → Rat
  mayFail : Prop
  ofInt : ∀ n : Int, covers (Scalar.ofInt n) ∧ value (Scalar.ofInt n) = n
  add : ∀ {a b}, covers a → covers b →
    Yields mayFail (fun c => covers c ∧ value c = value a + value b) (Scalar.add a b)
  sub : ∀ {a b}, covers a → covers b →
    Yields mayFail (fun c => covers c ∧ value c = value a - value b) (Scalar.sub a b)
  abs : ∀ {a}, covers a → covers (Scalar.abs a) ∧ value (Scalar.abs a) = |value a|
  lt : ∀ {a b}, covers a → covers b → Scalar.lt a b = decide (value a < value b)
  eq : ∀ {a b}, covers a → covers b → Scalar.eq a b = decide (value a = value b)

namespace Reading

variable {α : Type} [Scalar α] (ρ : Reading α) {a b : α}

/-- No two covered scalars have one value. -/
def IsFaithful : Prop := ∀ {a b}, ρ.covers a → ρ.covers b → ρ.value a = ρ.value b → a = b

theorem zero : ρ.covers (Scalar.ofInt 0) ∧ ρ.value (Scalar.ofInt 0) = 0 := by
  simpa using ρ.ofInt 0

/-- The smaller of two scalars has the smaller value. -/
theorem min (ha : ρ.covers a) (hb : ρ.covers b) :
    ρ.covers (Scalar.min a b) ∧ ρ.value (Scalar.min a b) = Min.min (ρ.value a) (ρ.value b) := by
  rw [Scalar.min, ρ.lt hb ha]
  split
  · next h => exact ⟨hb, (min_eq_right (of_decide_eq_true h).le).symm⟩
  · next h => exact ⟨ha, (min_eq_left (not_lt.mp (by simpa using h))).symm⟩

/-- The larger of two scalars has the larger value. -/
theorem max (ha : ρ.covers a) (hb : ρ.covers b) :
    ρ.covers (Scalar.max a b) ∧ ρ.value (Scalar.max a b) = Max.max (ρ.value a) (ρ.value b) := by
  rw [Scalar.max, ρ.lt ha hb]
  split
  · next h => exact ⟨hb, (max_eq_right (of_decide_eq_true h).le).symm⟩
  · next h => exact ⟨ha, (max_eq_left (not_lt.mp (by simpa using h))).symm⟩

/-- The smallest of some scalars has the smallest of their values. -/
theorem minimum {first : α} {rest : List α} (h : ∀ a ∈ first :: rest, ρ.covers a) :
    ρ.covers (Scalar.minimum first rest) ∧
      ((first :: rest).map ρ.value).min? = some (ρ.value (Scalar.minimum first rest)) := by
  induction rest generalizing first with
  | nil => exact ⟨h first List.mem_cons_self, rfl⟩
  | cons next rest ih =>
    simp only [List.forall_mem_cons] at h
    obtain ⟨hmin, hvalue⟩ := ρ.min h.1 h.2.1
    -- The fold goes on with the smaller of the first two.
    obtain ⟨hcovers, hmin?⟩ := ih (List.forall_mem_cons.mpr ⟨hmin, h.2.2⟩)
    rw [List.map_cons, hvalue] at hmin?
    exact ⟨hcovers, hmin?⟩

/-- The largest of some scalars has the largest of their values. -/
theorem maximum {first : α} {rest : List α} (h : ∀ a ∈ first :: rest, ρ.covers a) :
    ρ.covers (Scalar.maximum first rest) ∧
      ((first :: rest).map ρ.value).max? = some (ρ.value (Scalar.maximum first rest)) := by
  induction rest generalizing first with
  | nil => exact ⟨h first List.mem_cons_self, rfl⟩
  | cons next rest ih =>
    simp only [List.forall_mem_cons] at h
    obtain ⟨hmax, hvalue⟩ := ρ.max h.1 h.2.1
    obtain ⟨hcovers, hmax?⟩ := ih (List.forall_mem_cons.mpr ⟨hmax, h.2.2⟩)
    rw [List.map_cons, hvalue] at hmax?
    exact ⟨hcovers, hmax?⟩

/-- A sum has the sum of the values. -/
theorem yields_sum {values : List α} (h : ∀ a ∈ values, ρ.covers a) :
    Yields ρ.mayFail (fun c => ρ.covers c ∧ ρ.value c = (values.map ρ.value).sum)
      (Scalar.sum values) := by
  -- For any sum so far, on which the rest is added.
  have general : ∀ (values : List α) (start : α), ρ.covers start → (∀ a ∈ values, ρ.covers a) →
      Yields ρ.mayFail (fun c => ρ.covers c ∧
        ρ.value c = ρ.value start + (values.map ρ.value).sum) (values.foldlM Scalar.add start) := by
    intro values
    induction values with
    | nil => exact fun start hstart _ => yields_ok ⟨hstart, by simp⟩
    | cons a values ih =>
      intro start hstart h
      rw [List.forall_mem_cons] at h
      rw [List.foldlM_cons]
      refine (ρ.add hstart h.1).bind fun c hc => ?_
      refine (ih c hc.1 h.2).mono fun s hs => ⟨hs.1, ?_⟩
      rw [hs.2, hc.2, List.map_cons, List.sum_cons, add_assoc]
  refine (general values _ ρ.zero.1 h).mono fun c hc => ⟨hc.1, ?_⟩
  rw [hc.2, ρ.zero.2, zero_add]

/-- Quotients are exact, too. -/
def Divides : Prop := ∀ {a b}, ρ.covers a → ρ.covers b → ρ.value b ≠ 0 →
  Yields ρ.mayFail (fun c => ρ.covers c ∧ ρ.value c = ρ.value a / ρ.value b) (Scalar.div a b)

/-! ### The rationals and the integers -/

/-- A rational is read as it is. -/
def rational : Reading Rat where
  covers _ := True
  value q := q
  mayFail := False
  ofInt _ := ⟨trivial, rfl⟩
  add _ _ := ⟨trivial, rfl⟩
  sub _ _ := ⟨trivial, rfl⟩
  abs {q} _ := by
    refine ⟨trivial, ?_⟩
    show (if q < 0 then -q else q) = |q|
    split
    · next h => exact (abs_of_neg h).symm
    · next h => exact (abs_of_nonneg (not_lt.mp h)).symm
  lt _ _ := rfl
  eq _ _ := rfl

theorem isFaithful_rational : rational.IsFaithful := fun _ _ h => h

theorem divides_rational : rational.Divides := by
  intro a b _ _ hb
  rw [show Scalar.div a b = .ok (a / b) from div_rat hb]
  exact yields_ok ⟨trivial, rfl⟩

end Reading

end Scalar

namespace Number

variable {a b : Number} {m n : Int}

theorem eq_iff (ha : a.units? = some m) (hb : b.units? = some n) : a.eq b = true ↔ m = n := by
  rw [Number.eq, compare?_eq ha hb, ← Int.compare_eq_eq]
  simp

/-- The value of a finite number as a rational. -/
def value (a : Number) : Rat :=
  match a.units? with
  | some m => m / oneUnits
  | none => 0

theorem value_eq (ha : a.units? = some m) : a.value = m / oneUnits := by rw [value, ha]

theorem oneUnits_rat_pos : (0 : Rat) < oneUnits := by exact_mod_cast oneUnits_pos

@[simp]
theorem value_int (n : Int) : (int n).value = n := by
  rw [value_eq (m := n * oneUnits) rfl, Int.cast_mul, Int.cast_natCast,
    mul_div_cancel_right₀ _ oneUnits_rat_pos.ne']

/-- Finite numbers are in the order of their values. -/
theorem lt_eq (ha : a.units? = some m) (hb : b.units? = some n) :
    a.lt b = decide (a.value < b.value) := by
  rw [Bool.eq_iff_iff, lt_iff ha hb, decide_eq_true_iff, value_eq ha, value_eq hb,
    div_lt_div_iff_of_pos_right oneUnits_rat_pos, Int.cast_lt]

theorem eq_eq (ha : a.units? = some m) (hb : b.units? = some n) :
    a.eq b = decide (a.value = b.value) := by
  rw [Bool.eq_iff_iff, eq_iff ha hb, decide_eq_true_iff, value_eq ha, value_eq hb,
    div_left_inj' oneUnits_rat_pos.ne', Int.cast_inj]

end Number

namespace Scalar.Reading

/-- The integers among the numbers. -/
def integer : Reading Number where
  covers a := ∃ n : Int, a = .int n
  value := Number.value
  mayFail := False
  ofInt n := ⟨⟨n, rfl⟩, Number.value_int n⟩
  add := by
    rintro _ _ ⟨m, rfl⟩ ⟨n, rfl⟩
    exact yields_ok ⟨⟨m + n, rfl⟩, by simp⟩
  sub := by
    rintro _ _ ⟨m, rfl⟩ ⟨n, rfl⟩
    exact yields_ok ⟨⟨m - n, rfl⟩, by simp⟩
  abs := by
    rintro _ ⟨n, rfl⟩
    refine ⟨⟨n.natAbs, rfl⟩, ?_⟩
    show (Number.int n.natAbs).value = |(Number.int n).value|
    rw [Number.value_int, Number.value_int, Int.natCast_natAbs, Int.cast_abs]
  lt := by
    rintro _ _ ⟨m, rfl⟩ ⟨n, rfl⟩
    exact Number.lt_eq rfl rfl
  eq := by
    rintro _ _ ⟨m, rfl⟩ ⟨n, rfl⟩
    exact Number.eq_eq rfl rfl

theorem isFaithful_integer : integer.IsFaithful := by
  rintro _ _ ⟨m, rfl⟩ ⟨n, rfl⟩ h
  have hmn : (m : Rat) = n := by simpa [integer] using h
  rw [Int.cast_inj.mp hmn]

end Scalar.Reading

end LabelLayout
