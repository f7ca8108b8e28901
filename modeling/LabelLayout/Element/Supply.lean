import LabelLayout.Element.Assemble
import LabelLayout.Geometry.Translate

/-!
# `LabelLayout.Element.Supply`: fresh ids and new elements

An `IdSupply` issues ids. Each carries a running number, so no two ids of one
supply are the same, and behind it a suffix that keeps supplies of different
sessions apart. A number is used up by the request, whether or not the element
it was meant for comes to be.

`Issuing` is a computation that may issue ids and may fail; a failure does not
give ids back.
-/

set_option autoImplicit false

namespace LabelLayout

/-- How many ids were issued, and the suffix of each. -/
structure IdSupply where
  issued : Nat
  suffix : Nat → String

/-- A computation that issues ids. -/
abbrev Issuing := ExceptT Error (StateM IdSupply)

/-- The id with a running number. -/
def IdSupply.idAt (supply : IdSupply) (number : Nat) : String :=
  "element-" ++ toString number ++ "-" ++ supply.suffix number

/-- The next id. -/
def freshId : Issuing String := do
  let supply ← getThe IdSupply
  set { supply with issued := supply.issued + 1 }
  return supply.idAt (supply.issued + 1)

/-- What can fail without issuing ids is a computation that issues none. -/
instance : MonadLift (Except Error) Issuing where
  monadLift
    | .ok b => pure b
    | .error e => throw e

/-- A new element of a kind: fields that are not given hold their defaults, and
the id is fresh. -/
def createElement (kind : Datum) (given : Members) : Issuing (Element Number) := do
  if given.has "kind" then throw (.unexpectedArgument "kind")
  let some k ← Kind.ofDatum? kind | throw (.unknownKind kind)
  if given.has "id" then throw .idSupplied
  let id ← freshId
  given.checkNames k.fieldNames
  Element.assemble k (.ofMembers (("id", .str id) :: given) k.default)

/-- A copy of an element under a fresh id, shifted by values that may not be
numbers. -/
def Element.clone (e : Element Number) (dx dy : Datum) : Issuing (Element Number) := do
  let id ← freshId
  return (← e.shiftBy dx dy).withId id

/-- The spec of an element: its type and every field but the id, by name. -/
def Element.spec (e : Element Number) : Members :=
  ("type", Choice.datum e.kind) ::
    (e.kind.attributes.filter (· ≠ .id)).map fun a => (a.name, e.get a)

end LabelLayout
