import LabelLayout.Print.Compile

/-!
# `LabelLayout.Print.Sheet`: copies of a label on a sheet

The copies stand row by row. The margin is the padding of the sheet and the gap
between neighbours. Print dialogs offer up to 100 copies, four in a row, and a
margin of up to 50 pixels.
-/

set_option autoImplicit false

namespace LabelLayout.Print

/-- How copies of a label are laid out. -/
structure Sheet where
  copies : Nat
  perRow : Nat
  margin : Nat
  width : Int
  height : Int
  origins : List (Int × Int)
  deriving DecidableEq, Repr, Inhabited

/-- The rows that a number of copies fills. -/
def rowsFor (copies perRow : Nat) : Nat := (copies + perRow - 1) / perRow

def Sheet.rows (sheet : Sheet) : Nat := rowsFor sheet.copies sheet.perRow

/-- The corner of the copy with a number, counted from zero. -/
def origin (width height : Int) (perRow margin i : Nat) : Int × Int :=
  (margin + (i % perRow : Nat) * (width + margin), margin + (i / perRow : Nat) * (height + margin))

/-- The extent of a number of labels in a line, with margins around and between
them. -/
def lineExtent (count : Nat) (extent : Int) (margin : Nat) : Int :=
  2 * margin + count * extent + ((count : Int) - 1) * margin

/-- Copies of a label of `width` by `height` pixels. -/
def layOut (width height : Int) (copies perRow margin : Nat) : Sheet where
  copies := copies
  perRow := perRow
  margin := margin
  width := lineExtent (min perRow copies) width margin
  height := lineExtent (rowsFor copies perRow) height margin
  origins := (List.range copies).map (origin width height perRow margin)

/-- A number of a sheet within its limits. -/
def withinLimits (field : String) (low high : Nat) (got : Datum) : Except Error Nat :=
  match got with
  | .num (.int n) =>
    if low ≤ n ∧ n ≤ high then .ok n.toNat else .error (.sheetLimit field low high got)
  | _ => .error (.sheetLimit field low high got)

/-- A sheet from numbers that are still to be checked. -/
def sheet (width height : Int) (copies perRow margin : Datum) : Except Error Sheet := do
  let copies ← withinLimits "copies" 1 100 copies
  let perRow ← withinLimits "labels_per_row" 1 4 perRow
  let margin ← withinLimits "margin" 0 50 margin
  return layOut width height copies perRow margin

end LabelLayout.Print
