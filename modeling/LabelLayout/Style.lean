/-!
# `LabelLayout.Style`: the named choices of a design

A field of a design that takes one of a fixed set of words is an enumeration
here. `Choice` gives each enumeration its words in the order in which messages
list them; `Choice.ofName?_name` says that the word of a choice reads as that
choice.
-/

set_option autoImplicit false

namespace LabelLayout

/-- A finite set of choices with a word for each. No two share a word, so the
first choice of a choice's own word is that choice. -/
class Choice (τ : Type) where
  all : List τ
  name : τ → String
  find_name : ∀ choice, all.find? (fun other => name other == name choice) = some choice

namespace Choice

/-- The words of a set of choices. -/
def names (τ : Type) [Choice τ] : List String := (all : List τ).map name

/-- The choice that a word names. -/
def ofName? {τ : Type} [Choice τ] (word : String) : Option τ :=
  all.find? fun choice => name choice == word

/-- The word of a choice reads as that choice. -/
@[simp]
theorem ofName?_name {τ : Type} [Choice τ] (choice : τ) :
    ofName? (name choice) = some choice :=
  find_name choice

/-- Only its own word reads as a choice. -/
theorem name_of_ofName? {τ : Type} [Choice τ] {word : String} {choice : τ}
    (h : ofName? word = some choice) : name choice = word := by
  have found := List.find?_some h
  exact eq_of_beq found

end Choice

/-- The kinds of element that a label is composed of. -/
inductive Kind where
  | text | barcode | qrcode | image | shape | line
  deriving DecidableEq, Repr, Inhabited

instance : Choice Kind where
  all := [.text, .barcode, .qrcode, .image, .shape, .line]
  name
    | .text => "text"
    | .barcode => "barcode"
    | .qrcode => "qrcode"
    | .image => "image"
    | .shape => "shape"
    | .line => "line"
  find_name := by intro choice; cases choice <;> rfl

inductive FontWeight where
  | normal | medium | semibold | bold
  deriving DecidableEq, Repr, Inhabited

instance : Choice FontWeight where
  all := [.normal, .medium, .semibold, .bold]
  name
    | .normal => "normal"
    | .medium => "medium"
    | .semibold => "semibold"
    | .bold => "bold"
  find_name := by intro choice; cases choice <;> rfl

inductive TextAlign where
  | left | center | right
  deriving DecidableEq, Repr, Inhabited

instance : Choice TextAlign where
  all := [.left, .center, .right]
  name
    | .left => "left"
    | .center => "center"
    | .right => "right"
  find_name := by intro choice; cases choice <;> rfl

/-- The bar code symbologies. -/
inductive Symbology where
  | code128 | code39 | ean13 | upc
  deriving DecidableEq, Repr, Inhabited

instance : Choice Symbology where
  all := [.code128, .code39, .ean13, .upc]
  name
    | .code128 => "CODE128"
    | .code39 => "CODE39"
    | .ean13 => "EAN13"
    | .upc => "UPC"
  find_name := by intro choice; cases choice <;> rfl

/-- Where the readable text of a bar code stands. -/
inductive TextPosition where
  | top | bottom
  deriving DecidableEq, Repr, Inhabited

instance : Choice TextPosition where
  all := [.top, .bottom]
  name
    | .top => "top"
    | .bottom => "bottom"
  find_name := by intro choice; cases choice <;> rfl

/-- The error correction levels of a QR code, weakest first. -/
inductive CorrectionLevel where
  | low | medium | quartile | high
  deriving DecidableEq, Repr, Inhabited

instance : Choice CorrectionLevel where
  all := [.low, .medium, .quartile, .high]
  name
    | .low => "L"
    | .medium => "M"
    | .quartile => "Q"
    | .high => "H"
  find_name := by intro choice; cases choice <;> rfl

inductive ObjectFit where
  | contain | cover | fill
  deriving DecidableEq, Repr, Inhabited

instance : Choice ObjectFit where
  all := [.contain, .cover, .fill]
  name
    | .contain => "contain"
    | .cover => "cover"
    | .fill => "fill"
  find_name := by intro choice; cases choice <;> rfl

inductive ShapeForm where
  | rectangle | circle | rounded
  deriving DecidableEq, Repr, Inhabited

instance : Choice ShapeForm where
  all := [.rectangle, .circle, .rounded]
  name
    | .rectangle => "rectangle"
    | .circle => "circle"
    | .rounded => "rounded-rectangle"
  find_name := by intro choice; cases choice <;> rfl

inductive StrokeStyle where
  | solid | dashed | dotted
  deriving DecidableEq, Repr, Inhabited

instance : Choice StrokeStyle where
  all := [.solid, .dashed, .dotted]
  name
    | .solid => "solid"
    | .dashed => "dashed"
    | .dotted => "dotted"
  find_name := by intro choice; cases choice <;> rfl

/-- What a label size is meant for. -/
inductive SizeCategory where
  | shipping | product | location | pallet | custom
  deriving DecidableEq, Repr, Inhabited

instance : Choice SizeCategory where
  all := [.shipping, .product, .location, .pallet, .custom]
  name
    | .shipping => "shipping"
    | .product => "product"
    | .location => "location"
    | .pallet => "pallet"
    | .custom => "custom"
  find_name := by intro choice; cases choice <;> rfl

/-- The units that rulers show. -/
inductive LengthUnit where
  | inches | mm
  deriving DecidableEq, Repr, Inhabited

instance : Choice LengthUnit where
  all := [.inches, .mm]
  name
    | .inches => "inches"
    | .mm => "mm"
  find_name := by intro choice; cases choice <;> rfl

end LabelLayout
