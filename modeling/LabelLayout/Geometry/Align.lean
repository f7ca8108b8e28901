import LabelLayout.Geometry.Bounds
import LabelLayout.Geometry.Translate

/-!
# `LabelLayout.Geometry.Align`: elements lined up with each other

Left and top use the smallest edge of all elements, right and bottom the
largest. Center and middle use the mean of the elements' own centers, which is
not the center of the box around them. A single element stays where it is, and
the order of the elements stays too.
-/

set_option autoImplicit false

namespace LabelLayout

/-- What elements are lined up by. -/
inductive AlignMode where
  | left | center | right | top | middle | bottom
  deriving DecidableEq, Repr, Inhabited

instance : Choice AlignMode where
  all := [.left, .center, .right, .top, .middle, .bottom]
  name
    | .left => "left"
    | .center => "center"
    | .right => "right"
    | .top => "top"
    | .middle => "middle"
    | .bottom => "bottom"
  find_name := by intro choice; cases choice <;> rfl

/-- Whether elements move along x. -/
def AlignMode.horizontal : AlignMode → Bool
  | .left | .center | .right => true
  | .top | .middle | .bottom => false

namespace Geometry

variable {α : Type} [Scalar α]

/-- The coordinate of a box that a mode lines up. -/
def anchor (mode : AlignMode) (b : Bounds α) : Except Fault α :=
  match mode with
  | .left => .ok b.left
  | .right => .ok b.right
  | .top => .ok b.top
  | .bottom => .ok b.bottom
  | .center => b.centerX
  | .middle => b.centerY

/-- The coordinate that all anchors are brought to. -/
def target (mode : AlignMode) (first : α) (rest : List α) : Except Fault α :=
  match mode with
  | .left | .top => .ok (Scalar.minimum first rest)
  | .right | .bottom => .ok (Scalar.maximum first rest)
  | .center | .middle => do
    Scalar.div (← Scalar.sum (first :: rest)) (Scalar.constant (rest.length + 1) 1)

/-- An element moved along one axis. -/
def slide (horizontal : Bool) (e : Element α) (delta : α) : Except Fault (Element α) :=
  if horizontal then e.translate delta (Scalar.ofInt 0)
  else e.translate (Scalar.ofInt 0) delta

/-- The elements lined up by a mode. -/
def align (elements : List (Element α)) (mode : AlignMode) : Except Fault (List (Element α)) := do
  if elements.length < 2 then return elements
  let anchors ← (← elements.mapM Element.bounds).mapM (anchor mode)
  match anchors with
  | [] => return elements
  | first :: rest =>
    let goal ← target mode first rest
    (elements.zip anchors).mapM fun (e, a) => do
      slide mode.horizontal e (← Scalar.sub goal a)

end Geometry

end LabelLayout
