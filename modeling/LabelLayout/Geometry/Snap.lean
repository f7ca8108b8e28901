import LabelLayout.Scalar

/-!
# `LabelLayout.Geometry.Snap`: the nearest grid line

A value snaps to the nearest multiple of the grid, and a value halfway between
two of them to the larger one. The grid must be wider than nothing.
-/

set_option autoImplicit false

namespace LabelLayout.Geometry

variable {α : Type} [Scalar α]

/-- The number of the grid line that is nearest to a value. -/
def gridLine (value grid : α) : Except Fault Int := do
  let steps ← Scalar.div value grid
  Scalar.floor (← Scalar.add steps (Scalar.constant 1 2))

/-- The multiple of the grid that is nearest to a value. -/
def snap (value grid : α) : Except Fault α := do
  if Scalar.le grid (Scalar.ofInt 0) then throw .gridNotPositive
  let line ← gridLine value grid
  Scalar.mul (Scalar.ofInt line) grid

end LabelLayout.Geometry
