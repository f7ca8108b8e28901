import LabelLayout.Element

/-!
# `LabelLayout.Geometry.Translate`: moving an element

A shift moves the origin, and for a line the other end as well; the extent of a
line is derived again from its new ends. A shift by nothing leaves an element as
it is.
-/

set_option autoImplicit false

namespace LabelLayout

variable {α : Type} [Scalar α]

/-- An element with its origin, and the other end of a line, shifted. -/
def Element.shift (e : Element α) (dx dy : α) : Except Fault (Element α) := do
  let x ← Scalar.add e.frame.x dx
  let y ← Scalar.add e.frame.y dy
  let frame := { e.frame with x, y }
  match e.body with
  | .line line => do
    let x2 ← Scalar.add line.x2 dx
    let y2 ← Scalar.add line.y2 dy
    return ⟨← frame.spanning x2 y2, .line { line with x2, y2 }⟩
  | body => return ⟨frame, body⟩

/-- An element moved by `(dx, dy)`. -/
def Element.translate (e : Element α) (dx dy : α) : Except Fault (Element α) :=
  if Scalar.eq dx (Scalar.ofInt 0) && Scalar.eq dy (Scalar.ofInt 0) then .ok e
  else e.shift dx dy

/-- A shift by values that may not be numbers. The sum along x is formed before
the value along y is looked at. -/
def Element.shiftBy (e : Element α) (dx dy : Value α) : Except Fault (Element α) := do
  let dx ← dx.operand
  match dy.operand? with
  | some dy => e.shift dx dy
  | none => do
    let _ ← Scalar.add e.frame.x dx
    throw .operand

/-- A move by values that may not be numbers. -/
def Element.translateBy (e : Element α) (dx dy : Value α) : Except Fault (Element α) :=
  match dx.operand?, dy.operand? with
  | some dx, some dy => e.translate dx dy
  | _, _ => e.shiftBy dx dy

end LabelLayout
