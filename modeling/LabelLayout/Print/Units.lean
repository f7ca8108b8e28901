import LabelLayout.Error
import LabelLayout.Size

/-!
# `LabelLayout.Print.Units`: percent, inches and pixels

A design is measured in percent of the label, a label in inches, and a device in
pixels at some number of dots per inch. Inches become pixels rounded to the
nearest whole one, halves up; points become pixels unrounded, 72 to the inch.

A resolution is any number that is not zero or negative.
-/

set_option autoImplicit false

namespace LabelLayout.Print

/-- A resolution in dots per inch. -/
def resolution (got : Datum) : Except Error Number :=
  match got with
  | .num dpi => if dpi.le (.int 0) then .error (.invalidDpi got) else .ok dpi
  | _ => .error (.invalidDpi got)

variable {α : Type} [Scalar α]

def inchesToPixels (inches dpi : α) : Except Fault Int := do
  let pixels ← Scalar.mul inches dpi
  Scalar.floor (← Scalar.add pixels (Scalar.constant 1 2))

def pixelsToInches (pixels dpi : α) : Except Fault α := Scalar.div pixels dpi

/-- The pixels of a point. -/
def pixelsPerPoint (dpi : α) : Except Fault α := Scalar.div dpi (Scalar.constant 72 1)

def pointsToPixels (points dpi : α) : Except Fault α := do
  Scalar.mul points (← pixelsPerPoint dpi)

/-- A percentage of an extent in inches. -/
def designToInches (percent extent : α) : Except Fault α := do
  Scalar.mul (← Scalar.div percent (Scalar.constant 100 1)) extent

/-- The pixels of a whole label, across and down. -/
def canvasSize (size : LabelSize α) (dpi : α) : Except Fault (Int × Int) := do
  let width ← inchesToPixels size.width dpi
  let height ← inchesToPixels size.height dpi
  return (width, height)

/-- A distance on screen as a percentage of an extent in inches. -/
def pixelsToDesign (pixels pixelsPerInch extent : α) : Except Fault α := do
  let inches ← Scalar.div pixels pixelsPerInch
  Scalar.mul (← Scalar.div inches extent) (Scalar.constant 100 1)

/-- A drag on screen as a shift of the design. The zoom multiplies the screen's
resolution. -/
def screenDelta (dx dy : α) (size : LabelSize α) (zoom screenDpi : α) :
    Except Fault (α × α) := do
  let pixelsPerInch ← Scalar.mul screenDpi zoom
  let x ← pixelsToDesign dx pixelsPerInch size.width
  let y ← pixelsToDesign dy pixelsPerInch size.height
  return (x, y)

end LabelLayout.Print
