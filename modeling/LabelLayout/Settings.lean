import LabelLayout.Check

/-!
# `LabelLayout.Settings`: what an editor keeps with a document

The grid that moves snap to, whether grid and rulers show, and the unit of the
rulers. The grid must not be zero or negative.
-/

set_option autoImplicit false

namespace LabelLayout

structure Settings (α : Type) where
  gridSize : α
  showGrid : Value α
  showRulers : Value α
  units : LengthUnit
  deriving DecidableEq, Repr, Inhabited

namespace Settings

def initial : Settings Number := ⟨.fraction 5 1, .bool true, .bool true, .inches⟩

/-- Settings from plain values. -/
def check (gridSize showGrid showRulers units : Datum) : Except Error (Settings Number) := do
  let gridSize ← Check.number "grid_size" gridSize
  if gridSize.le (.int 0) then throw (.gridNotPositive (.num gridSize))
  let units ← Check.choice LengthUnit "units" units
  return { gridSize, showGrid, showRulers, units }

/-- Settings from named arguments, the others being the initial ones. -/
def ofArguments (arguments : Members) : Except Error (Settings Number) := do
  arguments.checkNames ["grid_size", "show_grid", "show_rulers", "units"]
  check ((arguments.lookup "grid_size").getD (.num initial.gridSize))
    ((arguments.lookup "show_grid").getD initial.showGrid)
    ((arguments.lookup "show_rulers").getD initial.showRulers)
    ((arguments.lookup "units").getD (Choice.datum initial.units))

end Settings

end LabelLayout
