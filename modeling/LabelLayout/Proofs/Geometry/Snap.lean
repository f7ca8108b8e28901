import LabelLayout.Geometry.Snap
import LabelLayout.Proofs.Except
import LabelLayout.Proofs.Scalar
import Mathlib.Tactic.FieldSimp
import Mathlib.Tactic.Linarith
import Mathlib.Tactic.Ring

/-!
# `LabelLayout.Proofs.Geometry.Snap`: the nearest grid line over the rationals

`Geometry.SnapsTo` says where a value comes to lie without saying how: on a line of the grid,
less than half a step further down or at most half a step further up. There is one such place
(`SnapsTo.unique`), and `snap_eq_ok_iff` says that a value snaps to it.

The laws of snapping are laws of that relation. A line of the grid stays where it is, larger
values come to lie further up, and values that lie so many steps apart do so afterwards.
`Geometry.snap_lands` puts them together.
-/

set_option autoImplicit false

namespace LabelLayout.Geometry

/-- The second value is the line of the grid that is nearest to the first, the upper one of two
that are. -/
structure SnapsTo (grid value line : Rat) : Prop where
  onGrid : ∃ k : Int, line = k * grid
  lt : value - grid / 2 < line
  le : line ≤ value + grid / 2

section

variable {g v w r s : Rat}

namespace SnapsTo

/-- A line of the grid snaps to itself. -/
theorem self (hg : 0 < g) (k : Int) : SnapsTo g (k * g) (k * g) where
  onGrid := ⟨k, rfl⟩
  lt := by linarith
  le := by linarith

/-- Snapping keeps the order. -/
theorem mono (hg : 0 < g) (hr : SnapsTo g v r) (hs : SnapsTo g w s) (h : v ≤ w) : r ≤ s := by
  obtain ⟨k, rfl⟩ := hr.onGrid
  obtain ⟨l, rfl⟩ := hs.onGrid
  -- The lower line is less than a step above the upper one, so it is not above it.
  have hstep : (k : Rat) * g < (l + 1 : Int) * g := by
    have hlow := hr.le
    have hhigh := hs.lt
    push_cast
    linarith
  have hlines : k < l + 1 := by exact_mod_cast lt_of_mul_lt_mul_right hstep hg.le
  exact mul_le_mul_of_nonneg_right (by exact_mod_cast Int.lt_add_one_iff.mp hlines) hg.le

/-- A value snaps to one line only. -/
theorem unique (hg : 0 < g) (hr : SnapsTo g v r) (hs : SnapsTo g v s) : r = s :=
  le_antisymm (hr.mono hg hs le_rfl) (hs.mono hg hr le_rfl)

/-- A value that lies so many steps further up snaps to a line that does. -/
theorem shift (h : SnapsTo g v r) (k : Int) : SnapsTo g (v + k * g) (r + k * g) where
  onGrid := by
    obtain ⟨l, rfl⟩ := h.onGrid
    exact ⟨l + k, by push_cast; ring⟩
  lt := by
    have hlt := h.lt
    linarith
  le := by
    have hle := h.le
    linarith

end SnapsTo

/-- The steps to a value are rounded to the nearest whole number, halves up. -/
theorem snap_rat (hg : 0 < g) (v : Rat) : snap v g = .ok (⌊v / g + 1 / 2⌋ * g) := by
  have hguard : Scalar.le g (Scalar.ofInt 0) = false := decide_eq_false (not_le.mpr (by simpa))
  simp only [snap, hguard, gridLine, Scalar.div_rat hg.ne', ok_bind, Scalar.add_rat,
    Scalar.constant_rat, Int.cast_one, Nat.cast_ofNat, Scalar.floor_rat, Scalar.mul_rat]
  rfl

theorem snapsTo_floor (hg : 0 < g) (v : Rat) : SnapsTo g v (⌊v / g + 1 / 2⌋ * g) := by
  -- A half more than the steps, in units of the grid.
  have hsteps : (v / g + 1 / 2) * g = v + g / 2 := by field_simp
  refine ⟨⟨_, rfl⟩, ?_, ?_⟩
  · have hlt := mul_lt_mul_of_pos_right (Int.lt_floor_add_one (v / g + 1 / 2)) hg
    linarith
  · have hle := mul_le_mul_of_nonneg_right (Int.floor_le (v / g + 1 / 2)) hg.le
    linarith

/-- A value snaps to the nearest line of the grid. -/
theorem snap_eq_ok_iff (hg : 0 < g) : snap v g = .ok r ↔ SnapsTo g v r := by
  rw [snap_rat hg, Except.ok.injEq]
  constructor
  · rintro rfl
    exact snapsTo_floor hg v
  · exact (snapsTo_floor hg v).unique hg

/-- Over a grid wider than nothing every value snaps, to a multiple of the grid that is less than
half a step below it or at most half a step above. That multiple snaps to itself, no larger
value snaps to a lesser one, and a value so many steps further on snaps as many steps further
on. -/
theorem snap_lands (hg : 0 < g) (v : Rat) :
    ∃ r, snap v g = .ok r ∧ (∃ k : Int, r = k * g) ∧ v - g / 2 < r ∧ r ≤ v + g / 2 ∧
      snap r g = .ok r ∧
      (∀ w, v ≤ w → ∃ s, snap w g = .ok s ∧ r ≤ s) ∧
      ∀ k : Int, snap (v + k * g) g = .ok (r + k * g) := by
  have hsnaps := snapsTo_floor hg v
  refine ⟨_, snap_rat hg v, hsnaps.onGrid, hsnaps.lt, hsnaps.le, ?_, ?_, ?_⟩
  · exact (snap_eq_ok_iff hg).mpr (.self hg _)
  · intro w hvw
    exact ⟨_, snap_rat hg w, hsnaps.mono hg (snapsTo_floor hg w) hvw⟩
  · intro k
    exact (snap_eq_ok_iff hg).mpr (hsnaps.shift k)

/-- A value below zero that lies halfway between two lines snaps to the upper one, and so does the
value three steps below it. -/
theorem snap_lands_halfway :
    (0 : Rat) < 1 / 4 ∧ snap (-3 / 8 : Rat) (1 / 4) = .ok (-1 / 4) ∧
      snap (-1 / 4 : Rat) (1 / 4) = .ok (-1 / 4) ∧
      (∃ s, snap (1 / 8 : Rat) (1 / 4) = .ok s ∧ -1 / 4 ≤ s) ∧
      snap (-3 / 8 + (-3 : Int) * (1 / 4) : Rat) (1 / 4) =
        .ok (-1 / 4 + (-3 : Int) * (1 / 4)) := by
  have hg : (0 : Rat) < 1 / 4 := by norm_num
  obtain ⟨r, hsnap, ⟨k, rfl⟩, hlt, hle, hself, hmono, hshift⟩ := snap_lands hg (-3 / 8)
  have hk : k = -1 := by
    have hlow : (-2 : Rat) < k := by linarith
    have hhigh : (k : Rat) < 0 := by linarith
    have hlow' : (-2 : Int) < k := by exact_mod_cast hlow
    have hhigh' : k < 0 := by exact_mod_cast hhigh
    omega
  have hr : (k : Rat) * (1 / 4) = -1 / 4 := by
    rw [hk]
    norm_num
  rw [hr] at hsnap hself hmono hshift
  exact ⟨hg, hsnap, hself, hmono (1 / 8) (by norm_num), hshift (-3)⟩

end

end LabelLayout.Geometry
