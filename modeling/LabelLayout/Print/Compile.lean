import LabelLayout.Binding.Resolve
import LabelLayout.Design.Record
import LabelLayout.Print.Units

/-!
# `LabelLayout.Print.Compile`: a design in device pixels

Compiling turns percentages into whole pixels and points into pixels. Everything
else stays: ids, order, contents and the line height, which is a multiplier. The
extent of a line follows from its compiled ends. A `PrintDocument` keeps hidden
elements, but only the visible ones are for print.
-/

set_option autoImplicit false

namespace LabelLayout

/-- A label in device pixels. -/
structure PrintDocument (α : Type) where
  dpi : α
  width : Int
  height : Int
  size : LabelSize α
  elements : List (Element α)
  deriving DecidableEq, Repr, Inhabited

variable {α : Type} [Scalar α]

namespace Print

/-- A percentage of an extent in whole pixels. -/
def percentToPixels (extent dpi percent : α) : Except Fault α := do
  return Scalar.ofInt (← inchesToPixels (← designToInches percent extent) dpi)

/-- A text metric in points, which may be absent, in pixels. -/
def metricToPixels (dpi : α) (points : Value α) : Except Fault (Value α) :=
  match points with
  | .null => .ok .null
  | points => do
    let perPoint ← pixelsPerPoint dpi
    return .num (← Scalar.mul (← points.operand) perPoint)

/-- The body of a box with its points in pixels. -/
def compileBody (dpi : α) : Body α → Except Fault (Body α)
  | .text t => do
    let fontSize ← pointsToPixels t.fontSize dpi
    let letterSpacing ← metricToPixels dpi t.letterSpacing
    return .text { t with fontSize, letterSpacing }
  | .shape s => do
    let strokeWidth ← pointsToPixels s.strokeWidth dpi
    let cornerRadius ← pointsToPixels s.cornerRadius dpi
    return .shape { s with strokeWidth, cornerRadius }
  | body => return body

end Print

open Print in
/-- An element in device pixels. -/
def Element.compile (size : LabelSize α) (dpi : α) (e : Element α) : Except Fault (Element α) := do
  let x ← percentToPixels size.width dpi e.frame.x
  let y ← percentToPixels size.height dpi e.frame.y
  match e.body with
  | .line line => do
    let x2 ← percentToPixels size.width dpi line.x2
    let y2 ← percentToPixels size.height dpi line.y2
    let strokeWidth ← pointsToPixels line.strokeWidth dpi
    let frame ← { e.frame with x, y }.spanning x2 y2
    return ⟨frame, .line { line with x2, y2, strokeWidth }⟩
  | body => do
    let width ← percentToPixels size.width dpi e.frame.width
    let height ← percentToPixels size.height dpi e.frame.height
    return ⟨{ e.frame with x, y, width, height }, ← compileBody dpi body⟩

/-- A document in device pixels. -/
def Document.compile (d : Document α) (dpi : α) : Except Fault (PrintDocument α) := do
  let (width, height) ← Print.canvasSize d.size dpi
  let elements ← d.elements.mapM (Element.compile d.size dpi)
  return { dpi, width, height, size := d.size, elements }

/-- A document filled in from a context, in device pixels. -/
def Document.render (d : Document Number) (dpi : Number) (context : Datum) :
    Except Fault (PrintDocument Number) :=
  (d.resolve context).compile dpi

/-- The elements that are for print. -/
def PrintDocument.printable (p : PrintDocument α) : List (Element α) :=
  p.elements.filter Element.isVisible

/-- The record of a label in device pixels, as it is handed to a renderer. -/
def PrintDocument.record (p : PrintDocument Number) : Datum :=
  .object [
    ("dpi", .num p.dpi),
    ("width", .num (.int p.width)),
    ("height", .num (.int p.height)),
    ("size", .object p.size.record),
    ("elements", .list (p.printable.map fun e => .object e.record))]

end LabelLayout
