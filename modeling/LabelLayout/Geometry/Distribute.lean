import LabelLayout.Geometry.Align
import LabelLayout.Sort

/-!
# `LabelLayout.Geometry.Distribute`: equal gaps

The elements are taken in the order of their leading edges, which ties do not
change. The first starts where the first element starts, and each further one
behind the one before it and a gap; the gap is what the elements leave of the
whole span, shared equally, and is negative when they overlap. Two elements have
no gap to even out. The result is in the order of the input.
-/

set_option autoImplicit false

namespace LabelLayout

/-- The axis that elements are spread along. -/
inductive Direction where
  | horizontal | vertical
  deriving DecidableEq, Repr, Inhabited

instance : Choice Direction where
  all := [.horizontal, .vertical]
  name
    | .horizontal => "horizontal"
    | .vertical => "vertical"
  find_name := by intro choice; cases choice <;> rfl

/-- The extent of an element along an axis. -/
structure Segment (α : Type) where
  lead : α
  trail : α
  extent : α
  deriving DecidableEq, Repr, Inhabited

namespace Geometry

variable {α : Type} [Scalar α]

/-- The edges of a box along a direction. -/
def segment (direction : Direction) (b : Bounds α) : Except Fault (Segment α) :=
  match direction with
  | .horizontal => do return ⟨b.left, b.right, ← b.width⟩
  | .vertical => do return ⟨b.top, b.bottom, ← b.height⟩

/-- The gap between neighbours when segments of these extents share a span. -/
def gap (start finish : α) (extents : List α) : Except Fault α := do
  let span ← Scalar.sub finish start
  let free ← Scalar.sub span (← Scalar.sum extents)
  Scalar.div free (Scalar.ofInt (extents.length - 1))

/-- Segments, each with its number, in the order of their leads, which ties do not
change. A lead that does not equal itself has no place in an order; among such
leads the comparisons decide that the sort makes. -/
def inOrder (segments : List (Segment α)) : List (Segment α × Nat) :=
  if segments.all fun s => Scalar.eq s.lead s.lead then
    segments.zipIdx.mergeSort fun a b => !Scalar.lt b.1.lead a.1.lead
  else Sort.sort (fun a b => Scalar.lt a.1.lead b.1.lead) segments.zipIdx

/-- Every segment has a place in the order. -/
theorem inOrder_perm (segments : List (Segment α)) :
    (inOrder segments).Perm segments.zipIdx := by
  simp only [inOrder]
  split
  · exact List.mergeSort_perm _ _
  · exact Sort.sort_perm _ _

/-- Where each of the segments, taken in order, has to start. -/
def starts (between : α) (current : α) : List (Segment α) → Except Fault (List α)
  | [] => .ok []
  | s :: rest => do
    let next ← Scalar.add current (← Scalar.add s.extent between)
    return current :: (← starts between next rest)

/-- The elements with equal gaps between them. -/
def distribute (elements : List (Element α)) (direction : Direction) :
    Except Fault (List (Element α)) := do
  if elements.length < 3 then return elements
  let segments ← (← elements.mapM Element.bounds).mapM (segment direction)
  let order := inOrder segments
  match segments, order with
  | first :: rest, (leading, _) :: _ =>
    let finish := Scalar.maximum first.trail (rest.map Segment.trail)
    let between ← gap leading.lead finish (segments.map Segment.extent)
    let places ← starts between leading.lead (order.map Prod.fst)
    let deltas ← (order.zip places).mapM fun ((s, i), start) => do
      return (i, ← Scalar.sub start s.lead)
    elements.zipIdx.mapM fun (e, i) =>
      match deltas.lookup i with
      | some delta => slide (direction == .horizontal) e delta
      | none => .ok e
  | _, _ => return elements

end Geometry

end LabelLayout
