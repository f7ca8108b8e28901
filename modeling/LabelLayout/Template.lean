import LabelLayout.Design.Record
import LabelLayout.Element.Supply

/-!
# `LabelLayout.Template`: reusable sets of elements

A template keeps a size and the specs of its elements. A spec holds the type and
the fields of an element by name, without an id: every use of a template creates
new elements, so two uses never share an id. `LabelTemplate.ofDocument` makes a
template of a document.
-/

set_option autoImplicit false

namespace LabelLayout

/-- A named set of element specs with the size it was designed for. -/
structure LabelTemplate where
  id : Datum
  name : Datum
  description : Datum
  category : Datum
  size : LabelSize Number
  specs : List Members
  deriving DecidableEq, Repr, Inhabited

/-- A new element from a spec. An id in the spec is passed over. -/
def instantiateSpec (spec : Members) : Issuing (Element Number) := do
  let kind ← Members.part spec "type"
  createElement kind (spec.filter fun (name, _) => name != "type" && name != "id")

namespace LabelTemplate

/-- New elements from all specs, in order. -/
def instantiate (t : LabelTemplate) : Issuing (List (Element Number)) :=
  t.specs.mapM instantiateSpec

/-- The template of a document. -/
def ofDocument (d : Document Number) (id name description category : Datum) :
    LabelTemplate :=
  { id, name, description, category, size := d.size, specs := d.elements.map Element.spec }

/-- A document with a template's elements put on top of its own, its size kept. -/
def mergeInto (t : LabelTemplate) (d : Document Number) : Issuing (Document Number) := do
  let elements ← t.instantiate
  d.withElements (d.elements ++ elements)

/-- A document with a template's elements and size in the place of its own. -/
def replaceIn (t : LabelTemplate) (d : Document Number) : Issuing (Document Number) := do
  let elements ← t.instantiate
  Document.make t.size elements d.settings

end LabelTemplate

end LabelLayout
