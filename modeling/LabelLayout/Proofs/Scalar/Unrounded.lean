import LabelLayout.Geometry.Distribute
import LabelLayout.Proofs.Scalar.Reading

/-!
# `LabelLayout.Proofs.Scalar.Unrounded`: arithmetic that does not round

Integers are exact, and so are most sums of doubles; a quotient need not be.
`Scalar.unrounded` is the arithmetic of the numbers of a design with a check behind each
operation: an operation whose outcome is not the value that it stands for fails. So a run
under this arithmetic that gives a result is a run of which every step is exact, and
`Scalar.Reading.unrounded` reads it.

What such a run gives, the numbers of a design give too (`Refines`): the check only takes
results away. `Geometry.refines_distribute` and `Geometry.refines_selectionBounds` say so of
distribution and of the box around a selection.
-/

set_option autoImplicit false

namespace LabelLayout

namespace Number

/-- The outcome of an operation, if that is the value which it stands for. -/
def exactly (value : Rat) (outcome : Except Fault Number) : Except Fault Number := do
  let c ← outcome
  if c.units?.isSome ∧ c.value = value then return c else throw .notANumber

theorem exactly_eq_ok {value : Rat} {outcome : Except Fault Number} {c : Number} :
    exactly value outcome = .ok c ↔ outcome = .ok c ∧ (∃ m, c.units? = some m) ∧
      c.value = value := by
  cases outcome with
  | error e => simp [exactly, error_bind]
  | ok d =>
    rw [exactly, ok_bind, ← Option.isSome_iff_exists]
    by_cases h : d.units?.isSome ∧ d.value = value
    · rw [if_pos h, pure_eq_ok, Except.ok.injEq]
      exact ⟨fun hd => ⟨hd, hd ▸ h⟩, And.left⟩
    · rw [if_neg h, Except.ok.injEq]
      exact ⟨fun h => (nomatch h), fun hc => absurd (hc.1 ▸ hc.2) h⟩

theorem yields_exactly (value : Rat) (outcome : Except Fault Number) :
    Yields True (fun c : Number => (∃ m, c.units? = some m) ∧ c.value = value)
      (exactly value outcome) := by
  cases h : exactly value outcome with
  | error e => exact trivial
  | ok c => exact (exactly_eq_ok.mp h).2

/-- The magnitude of a number has the magnitude of its units. -/
theorem units?_abs {a : Number} {m : Int} (h : a.units? = some m) :
    a.abs.units? = some (m.natAbs : Int) := by
  match a with
  | .int n =>
    cases h
    simp only [abs, units?, Int.natAbs_mul, Int.natAbs_natCast, Nat.cast_mul]
  | .float (.finite s u hu) =>
    cases h
    simp only [abs, Binary64.abs, units?, Binary64.units?_finite, Binary64.natAbs_signedUnits]
    rfl

end Number

namespace Scalar

open Number

/-- The arithmetic of the numbers of a design that fails where it would round. -/
@[reducible]
def unrounded : Scalar Number where
  ofInt := .int
  constant := .fraction
  add a b := exactly (a.value + b.value) (a.add b)
  sub a b := exactly (a.value - b.value) (a.sub b)
  mul a b := exactly (a.value * b.value) (a.mul b)
  div a b := exactly (a.value / b.value) (a.div b)
  abs := Number.abs
  floor := Number.floor
  lt := Number.lt
  le := Number.le
  eq := Number.eq

namespace Reading

/-- The finite numbers, under the arithmetic that does not round. -/
def unrounded : @Reading Number Scalar.unrounded :=
  letI := Scalar.unrounded
  { covers := fun a => ∃ m, a.units? = some m
    value := Number.value
    mayFail := True
    ofInt := fun n => ⟨⟨_, rfl⟩, value_int n⟩
    add := fun _ _ => yields_exactly _ _
    sub := fun _ _ => yields_exactly _ _
    abs := by
      rintro a ⟨m, hm⟩
      have habs := units?_abs hm
      refine ⟨⟨_, habs⟩, ?_⟩
      show a.abs.value = |a.value|
      rw [value_eq habs, value_eq hm, abs_div, abs_of_pos oneUnits_rat_pos, Int.natCast_natAbs,
        Int.cast_abs]
    lt := by
      rintro a b ⟨m, hm⟩ ⟨n, hn⟩
      exact lt_eq hm hn
    eq := by
      rintro a b ⟨m, hm⟩ ⟨n, hn⟩
      exact eq_eq hm hn }

theorem divides_unrounded : @Divides Number Scalar.unrounded unrounded :=
  fun _ _ _ => yields_exactly _ _

end Reading

end Scalar

/-! ### Runs that do not round -/

/-- What the first computation gives, the second one gives. -/
def Refines {ε α : Type} (x y : Except ε α) : Prop := ∀ a, x = .ok a → y = .ok a

section

variable {ε α β : Type}

theorem Refines.refl (x : Except ε α) : Refines x x := fun _ h => h

theorem Refines.bind {x y : Except ε α} {f g : α → Except ε β} (h : Refines x y)
    (hfg : ∀ a, Refines (f a) (g a)) : Refines (x >>= f) (y >>= g) := by
  intro b hb
  obtain ⟨a, ha, hb⟩ := bind_eq_ok.mp hb
  exact bind_eq_ok.mpr ⟨a, h a ha, hfg a b hb⟩

theorem Refines.mapM {f g : α → Except ε β} (h : ∀ a, Refines (f a) (g a)) (xs : List α) :
    Refines (xs.mapM f) (xs.mapM g) :=
  fun _ hys => mapM_eq_ok.mpr ((mapM_eq_ok.mp hys).imp fun x y hxy => h x y hxy)

end

theorem Number.refines_exactly (value : Rat) (outcome : Except Fault Number) :
    Refines (exactly value outcome) outcome :=
  fun _ h => (exactly_eq_ok.mp h).1

namespace Scalar

variable (a b : Number)

/-- An operation that does not round gives what the operation gives. -/
theorem refines_add : Refines (@Scalar.add Number unrounded a b) (Scalar.add a b) :=
  Number.refines_exactly _ _

theorem refines_sub : Refines (@Scalar.sub Number unrounded a b) (Scalar.sub a b) :=
  Number.refines_exactly _ _

theorem refines_div : Refines (@Scalar.div Number unrounded a b) (Scalar.div a b) :=
  Number.refines_exactly _ _

theorem refines_sum (values : List Number) :
    Refines (@Scalar.sum Number unrounded values) (Scalar.sum values) := by
  have general : ∀ (values : List Number) (start : Number),
      Refines (values.foldlM (@Scalar.add Number unrounded) start)
        (values.foldlM Scalar.add start) := by
    intro values
    induction values with
    | nil => exact fun start => .refl _
    | cons a values ih =>
      intro start
      rw [List.foldlM_cons, List.foldlM_cons]
      exact (refines_add start a).bind ih
  exact general values (.int 0)

end Scalar

open Scalar

namespace Element

variable (e : Element Number)

theorem refines_bounds : Refines (@bounds Number unrounded e) e.bounds := by
  obtain ⟨frame, body⟩ := e
  cases body with
  | line line => exact .refl _
  | _ => exact (refines_add _ _).bind fun _ => (refines_add _ _).bind fun _ => .refl _

theorem refines_shift (dx dy : Number) :
    Refines (@shift Number unrounded e dx dy) (e.shift dx dy) := by
  refine (refines_add _ _).bind fun x => (refines_add _ _).bind fun y => ?_
  obtain ⟨frame, body⟩ := e
  cases body with
  | line line =>
    refine (refines_add _ _).bind fun x2 => (refines_add _ _).bind fun y2 => ?_
    refine Refines.bind ?_ fun _ => .refl _
    exact (refines_sub _ _).bind fun _ => (refines_sub _ _).bind fun _ => .refl _
  | _ => exact .refl _

theorem refines_translate (dx dy : Number) :
    Refines (@translate Number unrounded e dx dy) (e.translate dx dy) := by
  show Refines (if dx.eq (.int 0) && dy.eq (.int 0) then .ok e else @shift Number unrounded e dx dy)
    (if dx.eq (.int 0) && dy.eq (.int 0) then .ok e else e.shift dx dy)
  split
  · exact .refl _
  · exact refines_shift e dx dy

end Element

namespace Geometry

variable (elements : List (Element Number)) (direction : Direction)

theorem refines_slide (horizontal : Bool) (e : Element Number) (delta : Number) :
    Refines (@slide Number unrounded horizontal e delta) (slide horizontal e delta) := by
  cases horizontal <;> exact Element.refines_translate e _ _

theorem refines_segment (b : Bounds Number) :
    Refines (@segment Number unrounded direction b) (segment direction b) := by
  cases direction <;> exact (refines_sub _ _).bind fun _ => .refl _

theorem refines_gap (start finish : Number) (extents : List Number) :
    Refines (@gap Number unrounded start finish extents) (gap start finish extents) := by
  refine (refines_sub _ _).bind fun span => (refines_sum _).bind fun total => ?_
  exact (refines_sub _ _).bind fun free => refines_div _ _

theorem refines_starts (between current : Number) (segments : List (Segment Number)) :
    Refines (@starts Number unrounded between current segments)
      (starts between current segments) := by
  induction segments generalizing current with
  | nil => exact .refl _
  | cons s rest ih =>
    refine (refines_add _ _).bind fun step => (refines_add _ _).bind fun next => ?_
    exact (ih next).bind fun _ => .refl _

/-- A distribution that does not round is the distribution. -/
theorem refines_distribute :
    Refines (@distribute Number unrounded elements direction) (distribute elements direction) := by
  unfold distribute
  split
  · exact .refl _
  · refine (Refines.mapM Element.refines_bounds _).bind fun boxes => ?_
    refine (Refines.mapM (refines_segment direction) _).bind fun segments => ?_
    -- The order is made by comparisons alone.
    have horder : @inOrder Number unrounded segments = inOrder segments := rfl
    simp only [horder]
    cases segments with
    | nil => exact .refl _
    | cons first rest =>
      cases inOrder (first :: rest) with
      | nil => exact .refl _
      | cons leading others =>
        refine (refines_gap _ _ _).bind fun between => ?_
        refine (refines_starts _ _ _).bind fun places => ?_
        refine Refines.bind (.mapM (fun p => ?_) _) fun deltas => .mapM (fun p => ?_) _
        · exact (refines_sub _ _).bind fun _ => .refl _
        · cases deltas.lookup p.2 with
          | none => exact .refl _
          | some delta => exact refines_slide _ _ _

/-- So is the box around a selection. -/
theorem refines_selectionBounds :
    Refines (@selectionBounds Number unrounded elements) (selectionBounds elements) :=
  (Refines.mapM Element.refines_bounds _).bind fun boxes => by
    cases boxes <;> exact .refl _

end Geometry

end LabelLayout
