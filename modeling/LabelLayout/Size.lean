import LabelLayout.Check

/-!
# `LabelLayout.Size`: label sizes

A label size is a width and a height in inches, with a name and a category. The
check refuses what is zero or negative; a dimension that is no number (NaN) is
neither.
-/

set_option autoImplicit false

namespace LabelLayout

/-- A label size in inches. The name may be any value. -/
structure LabelSize (α : Type) where
  name : Value α
  width : α
  height : α
  category : SizeCategory
  deriving DecidableEq, Repr, Inhabited

namespace LabelSize

/-- A size from plain values. -/
def check (name width height category : Datum) : Except Error (LabelSize Number) := do
  let width ← Check.number "width" width
  let height ← Check.number "height" height
  if width.le (.int 0) || height.le (.int 0) then throw (.sizeNotPositive width height)
  let category ← Check.choice SizeCategory "category" category
  return { name, width, height, category }

/-- A size from named arguments. -/
def ofArguments (arguments : Members) : Except Error (LabelSize Number) := do
  arguments.checkNames ["name", "width", "height", "category"]
  let name ← arguments.required "name"
  let width ← arguments.required "width"
  let height ← arguments.required "height"
  check name width height ((arguments.lookup "category").getD (.str "custom"))

/-- A size on offer. -/
def inches (name : String) (width height : Number) (category : SizeCategory) :
    LabelSize Number :=
  ⟨.str name, width, height, category⟩

/-- The sizes on offer. -/
def standard : List (LabelSize Number) := [
  inches "4×6 Shipping" (.int 4) (.int 6) .shipping,
  inches "4×6¼ Shipping" (.int 4) (.fraction 25 4) .shipping,
  inches "2×4 Product" (.int 2) (.int 4) .product,
  inches "3×2 Product" (.int 3) (.int 2) .product,
  inches "2×2 Square" (.int 2) (.int 2) .product,
  inches "2×1 Small" (.int 2) (.int 1) .location,
  inches "1×3 Narrow" (.int 1) (.int 3) .location,
  inches "3×1 Wide" (.int 3) (.int 1) .location,
  inches "4×4 Pallet" (.int 4) (.int 4) .pallet,
  inches "4×6 Pallet" (.int 4) (.int 6) .pallet]

/-- The size on offer under a name. -/
def find (name : Datum) : Except Error (LabelSize Number) :=
  match standard.find? fun size => size.name = name with
  | some size => .ok size
  | none => .error (.unknownSize name)

/-- The size of a new document. -/
def initial : LabelSize Number := inches "2×1 Small" (.int 2) (.int 1) .location

end LabelSize

end LabelLayout
