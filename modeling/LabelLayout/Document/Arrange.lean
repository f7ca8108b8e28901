import LabelLayout.Document
import LabelLayout.Geometry.Distribute
import LabelLayout.Geometry.Snap

/-!
# `LabelLayout.Document.Arrange`: moving elements within a document

Moves, alignment and distribution act on the elements that are named and not
locked, and put the results at the old places of the paint order
(`Document.replaceElements`). An id that the document does not have is passed
over. With the grid shown a move brings the origin of an element to the grid.
Bringing to the front and sending to the back change the paint order alone.
-/

set_option autoImplicit false

namespace LabelLayout.Document

variable {α : Type}

/-- The elements with those of the same id in `updated` put in their places. Of
several with one id the last stands. -/
def replaceElements (d : Document α) (updated : List (Element α)) : Document α :=
  { d with elements := d.elements.map fun e =>
      (updated.reverse.find? fun u => u.id == e.id).getD e }

/-- Replacing elements leaves every id at its place. -/
@[simp]
theorem ids_replaceElements (d : Document α) (updated : List (Element α)) :
    (d.replaceElements updated).ids = d.ids := by
  simp only [replaceElements, ids, List.map_map]
  refine List.map_congr_left fun e _ => ?_
  cases h : updated.reverse.find? (fun u => u.id == e.id) with
  | none => simp [h]
  | some u => simpa [h] using List.find?_some h

/-- The topmost place for an element; an unknown id changes nothing. -/
def bringToFront (d : Document α) (id : String) : Document α :=
  match d.find? id with
  | none => d
  | some e => { d with elements := d.elements.filter (fun o => o.id != id) ++ [e] }

/-- The lowest place for an element; an unknown id changes nothing. -/
def sendToBack (d : Document α) (id : String) : Document α :=
  match d.find? id with
  | none => d
  | some e => { d with elements := e :: d.elements.filter fun o => o.id != id }

variable [Scalar α]

/-- The elements that are named and not locked, in paint order. -/
def movable (d : Document α) (ids : List String) : List (Element α) :=
  d.elements.filter fun e => ids.contains e.id && !e.isLocked

/-- Where a position comes to lie: on the grid when it shows. -/
def settle (d : Document α) (position : α) : Except Fault α :=
  if d.settings.showGrid.truthy then Geometry.snap position d.settings.gridSize
  else .ok position

/-- An element moved to where `(x, y)` settles. -/
def moveTo (d : Document α) (e : Element α) (x y : α) : Except Fault (Document α) := do
  let x ← d.settle x
  let y ← d.settle y
  let moved ← e.translate (← Scalar.sub x e.frame.x) (← Scalar.sub y e.frame.y)
  return d.replaceElements [moved]

/-- The end of a move by `(dx, dy)`. Unknown and locked elements stay. -/
def move (d : Document α) (id : String) (dx dy : α) : Except Fault (Document α) :=
  match d.find? id with
  | none => .ok d
  | some e =>
    if e.isLocked then .ok d
    else do
      d.moveTo e (← Scalar.add e.frame.x dx) (← Scalar.add e.frame.y dy)

/-- The end of a move by values that may not be numbers. -/
def moveBy (d : Document α) (id : String) (dx dy : Value α) : Except Fault (Document α) :=
  match d.find? id with
  | none => .ok d
  | some e =>
    if e.isLocked then .ok d
    else do
      let x ← Scalar.add e.frame.x (← dx.operand)
      let y ← Scalar.add e.frame.y (← dy.operand)
      d.moveTo e x y

/-- The named elements lined up with each other. -/
def align (d : Document α) (ids : List String) (mode : AlignMode) :
    Except Fault (Document α) := do
  return d.replaceElements (← Geometry.align (d.movable ids) mode)

/-- The named elements spread with equal gaps. -/
def distribute (d : Document α) (ids : List String) (direction : Direction) :
    Except Fault (Document α) := do
  return d.replaceElements (← Geometry.distribute (d.movable ids) direction)

end LabelLayout.Document
