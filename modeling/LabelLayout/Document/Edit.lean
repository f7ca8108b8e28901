import LabelLayout.Binding.Resolve
import LabelLayout.Design.File
import LabelLayout.Document.Arrange
import LabelLayout.Template.Library

/-!
# `LabelLayout.Document.Edit`: the edits of a session

An `Edit` is one step of designing a label, with its arguments as they come in.
`Edit.apply` performs it on a document, and fails when its arguments do not fit.
A `Session` runs edits one after the other: a step that fails leaves the document
as it was, though an id it has issued stays used.

An edit of an id that the document does not have changes nothing.
-/

set_option autoImplicit false

namespace LabelLayout

namespace Document

/-- A document with an element on top. -/
def add (d : Document Number) (e : Element Number) : Except Error (Document Number) :=
  d.withElements (d.elements ++ [e])

/-- A document with some fields of an element changed. -/
def update (d : Document Number) (id : String) (changes : Members) :
    Except Error (Document Number) := do
  if changes.has "document" then throw (.unexpectedArgument "document")
  if changes.has "element_id" then throw (.unexpectedArgument "element_id")
  match d.find? id with
  | none => return d
  | some e => return d.replaceElements [← e.modify changes]

/-- A document without an element. -/
def delete (d : Document Number) (id : String) : Document Number :=
  { d with elements := d.elements.filter fun e => e.id != id }

/-- How far a copy lies from its source when nothing is said. -/
def duplicateOffset : Datum := .num (.fraction 5 2)

/-- A document with a shifted copy of an element on top. -/
def duplicate (d : Document Number) (id : String) (offset : Datum) :
    Issuing (Document Number) := do
  match d.find? id with
  | none => return d
  | some e => d.add (← e.clone offset offset)

def clear (d : Document Number) : Document Number := { d with elements := [] }

def toggleGrid (d : Document Number) : Document Number :=
  { d with settings := { d.settings with showGrid := .bool !d.settings.showGrid.truthy } }

def toggleRulers (d : Document Number) : Document Number :=
  { d with settings := { d.settings with showRulers := .bool !d.settings.showRulers.truthy } }

/-- A document with other settings, which are checked. -/
def withSettings (d : Document Number) (gridSize units : Datum) :
    Except Error (Document Number) := do
  let settings ← Settings.check gridSize d.settings.showGrid d.settings.showRulers units
  return { d with settings }

def setGridSize (d : Document Number) (gridSize : Datum) : Except Error (Document Number) :=
  d.withSettings gridSize (Choice.datum d.settings.units)

def setUnits (d : Document Number) (units : Datum) : Except Error (Document Number) :=
  d.withSettings (.num d.settings.gridSize) units

/-- A document read back from its own design file. Where the file is rejected the
document stays. -/
def roundTrip (d : Document Number) : Except Error (Document Number) := do
  return (← imported (← d.exported)).getD d

end Document

/-- The mode that a value names. -/
def AlignMode.ofDatum (v : Datum) : Except Error AlignMode :=
  match Check.choice AlignMode "mode" v with
  | .ok mode => .ok mode
  | .error _ => .error (.unknownAlignMode v)

/-- The direction that a value names. -/
def Direction.ofDatum (v : Datum) : Except Error Direction :=
  match Check.choice Direction "direction" v with
  | .ok direction => .ok direction
  | .error _ => .error (.unknownDirection v)

/-- One step of designing a label. -/
inductive Edit where
  | new (size settings : Option Datum)
  | load (record : Datum)
  | add (element : Datum)
  | create (kind fields : Datum)
  | update (id : String) (changes : Datum)
  | delete (id : String)
  | duplicate (id : String) (offset : Option Datum)
  | clear
  | replace (elements : Datum)
  | move (id : String) (dx dy : Datum)
  | align (ids mode : Datum)
  | distribute (ids direction : Datum)
  | bringToFront (id : String)
  | sendToBack (id : String)
  | setSize (record : Datum)
  | setStandardSize (name : Datum)
  | toggleGrid
  | toggleRulers
  | setGridSize (gridSize : Datum)
  | setUnits (units : Datum)
  | applyTemplate (template : Datum) (merge : Bool)
  | resolve (context : Datum)
  | roundTrip
  deriving DecidableEq, Repr, Inhabited

namespace Edit

/-- The ids that a value offers. What is no text is nobody's id, and what may not
serve as a key is none at all. -/
def idsOf (v : Datum) : Except Error (List String) :=
  match v.items? with
  | none => .error .wrongKind
  | some items =>
    if items.all Value.isKey then .ok (items.filterMap Value.text?) else .error .notAKey

/-- The document after an edit. -/
def apply (d : Document Number) : Edit → Issuing (Document Number)
  | .new size settings => do
    let size ← match size with
      | some v => LabelSize.ofRecord v
      | none => pure LabelSize.initial
    let settings ← match settings with
      | some v => Settings.ofRecord v
      | none => pure Settings.initial
    return ⟨size, [], settings⟩
  | .load record => Document.ofRecord record
  | .add element => do d.add (← Element.present (← Element.ofArgument? element))
  | .create kind fields => do d.add (← createElement kind (← Members.ofDatum fields))
  | .update id changes => do d.update id (← Members.ofDatum changes)
  | .delete id => return d.delete id
  | .duplicate id offset => d.duplicate id (offset.getD Document.duplicateOffset)
  | .clear => return d.clear
  | .replace elements => do
    let some items := elements.items? | throw .wrongKind
    return d.replaceElements (← Element.ofArguments items)
  | .move id dx dy => d.moveBy id dx dy
  | .align ids mode => do d.align (← idsOf ids) (← AlignMode.ofDatum mode)
  | .distribute ids direction => do
    d.distribute (← idsOf ids) (← Direction.ofDatum direction)
  | .bringToFront id => return d.bringToFront id
  | .sendToBack id => return d.sendToBack id
  | .setSize record => do return { d with size := ← LabelSize.ofRecord record }
  | .setStandardSize name => do return { d with size := ← LabelSize.find name }
  | .toggleGrid => return d.toggleGrid
  | .toggleRulers => return d.toggleRulers
  | .setGridSize gridSize => d.setGridSize gridSize
  | .setUnits units => d.setUnits units
  | .applyTemplate template merge => do
    let t ← LabelTemplate.ofDatum template
    if merge then t.mergeInto d else t.replaceIn d
  | .resolve context => return d.resolve context
  | .roundTrip => d.roundTrip

end Edit

/-- A document under design and the ids still to issue. -/
structure Session where
  supply : IdSupply
  document : Document Number

namespace Session

/-- What a step gives, and the session after it. -/
def step (s : Session) (edit : Edit) : Except Error (Document Number) × Session :=
  match (Edit.apply s.document edit).run s.supply with
  | (.ok d, supply) => (.ok d, ⟨supply, d⟩)
  | (.error e, supply) => (.error e, ⟨supply, s.document⟩)

/-- What the steps of a history give, and the session after them. -/
def run (s : Session) : List Edit → List (Except Error (Document Number)) × Session
  | [] => ([], s)
  | edit :: edits =>
    let (result, next) := s.step edit
    let (results, last) := next.run edits
    (result :: results, last)

end Session

end LabelLayout
