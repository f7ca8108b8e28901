import LabelLayout.Element.Assemble
import LabelLayout.Settings
import LabelLayout.Size

/-!
# `LabelLayout.Document`: a label under design

A document is a label size, the elements in paint order (the last is topmost)
and the editor's settings. Its elements are told apart by their ids, so no two
may share one; `Document.make` is the check.
-/

set_option autoImplicit false

namespace LabelLayout

structure Document (α : Type) where
  size : LabelSize α
  elements : List (Element α)
  settings : Settings α
  deriving DecidableEq, Repr, Inhabited

/-- The first item of a list that stands in it before. -/
def firstRepeated? : List String → Option String
  | ids => go [] ids
where
  go (seen : List String) : List String → Option String
    | [] => none
    | id :: rest => if seen.contains id then some id else go (id :: seen) rest

namespace Document

variable {α : Type}

/-- The ids in paint order. -/
def ids (d : Document α) : List String := d.elements.map Element.id

/-- The place of an id in the paint order. -/
def indexOf? (d : Document α) (id : String) : Option Nat := d.ids.findIdx? (· == id)

/-- The element with an id. -/
def find? (d : Document α) (id : String) : Option (Element α) :=
  d.elements.find? fun e => e.id == id

/-- A document, unless two elements share an id. -/
def make (size : LabelSize α) (elements : List (Element α)) (settings : Settings α) :
    Except Error (Document α) :=
  match firstRepeated? (elements.map Element.id) with
  | some id => .error (.duplicateId id)
  | none => .ok ⟨size, elements, settings⟩

/-- The same document with other elements. -/
def withElements (d : Document α) (elements : List (Element α)) : Except Error (Document α) :=
  make d.size elements d.settings

end Document

/-- An empty document. -/
def Document.initial : Document Number := ⟨LabelSize.initial, [], Settings.initial⟩

end LabelLayout
