import LabelLayout.Element

/-!
# `LabelLayout.Geometry.Bounds`: the box around an element

The box of a line spans both ends, whichever is smaller; the box of any other
element runs from its origin over its extent, which may be negative. A point on
the edge is inside. Under a point lies the last visible element of the paint
order that contains it.
-/

set_option autoImplicit false

namespace LabelLayout

/-- An upright box. -/
structure Bounds (α : Type) where
  left : α
  top : α
  right : α
  bottom : α
  deriving DecidableEq, Repr, Inhabited

variable {α : Type} [Scalar α]

namespace Bounds

def width (b : Bounds α) : Except Fault α := Scalar.sub b.right b.left

def height (b : Bounds α) : Except Fault α := Scalar.sub b.bottom b.top

/-- The point halfway between two edges. -/
def middle (low high : α) : Except Fault α := do
  Scalar.div (← Scalar.add low high) (Scalar.constant 2 1)

def centerX (b : Bounds α) : Except Fault α := middle b.left b.right

def centerY (b : Bounds α) : Except Fault α := middle b.top b.bottom

/-- Whether a position along x lies between the sides. -/
def spansX (b : Bounds α) (x : α) : Bool := Scalar.le b.left x && Scalar.le x b.right

/-- Whether a position along y lies between top and bottom. -/
def spansY (b : Bounds α) (y : α) : Bool := Scalar.le b.top y && Scalar.le y b.bottom

/-- Whether the box contains a point. -/
def contains (b : Bounds α) (x y : α) : Bool := b.spansX x && b.spansY y

/-- The box around several boxes. -/
def union (first : Bounds α) (rest : List (Bounds α)) : Bounds α where
  left := Scalar.minimum first.left (rest.map Bounds.left)
  top := Scalar.minimum first.top (rest.map Bounds.top)
  right := Scalar.maximum first.right (rest.map Bounds.right)
  bottom := Scalar.maximum first.bottom (rest.map Bounds.bottom)

end Bounds

/-- The box around an element. -/
def Element.bounds (e : Element α) : Except Fault (Bounds α) :=
  match e.body with
  | .line line => return {
      left := Scalar.min e.frame.x line.x2
      top := Scalar.min e.frame.y line.y2
      right := Scalar.max e.frame.x line.x2
      bottom := Scalar.max e.frame.y line.y2 }
  | _ => do
    let right ← Scalar.add e.frame.x e.frame.width
    let bottom ← Scalar.add e.frame.y e.frame.height
    return { left := e.frame.x, top := e.frame.y, right, bottom }

namespace Geometry

/-- The box around several elements; none around no elements. -/
def selectionBounds (elements : List (Element α)) : Except Fault (Option (Bounds α)) := do
  match ← elements.mapM Element.bounds with
  | [] => return none
  | first :: rest => return some (first.union rest)

/-- The first visible element of a list that contains a point. -/
def firstAt (x y : α) : List (Element α) → Except Fault (Option (Element α))
  | [] => .ok none
  | e :: rest =>
    if e.isVisible then do
      let b ← e.bounds
      if b.contains x y then return some e else firstAt x y rest
    else firstAt x y rest

/-- The topmost visible element that contains a point. -/
def topmostAt (x y : α) (elements : List (Element α)) : Except Fault (Option (Element α)) :=
  firstAt x y elements.reverse

end Geometry

end LabelLayout
