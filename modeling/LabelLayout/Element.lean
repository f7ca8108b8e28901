import LabelLayout.Style
import LabelLayout.Value

/-!
# `LabelLayout.Element`: what a label is composed of

An element has a frame (its id, its place, its flags) and a body that says what
is drawn in it. Positions and extents of a design are percent of the label: of
its width along x, of its height along y. Font sizes, strokes and corner radii
are points.

A line runs from the origin of its frame to `(x2, y2)`. Its frame's width and
height are the distances between those ends; `Frame.spanning` is the one place
that derives them. Rotation is left to the renderer.

Flags and the two text metrics hold any value, because no check looks at them:
a flag is read by its truth, and a metric that is used must bring a number.
-/

set_option autoImplicit false

namespace LabelLayout

/-- What every element has. -/
structure Frame (α : Type) where
  id : String
  x : α
  y : α
  width : α
  height : α
  rotation : α
  locked : Value α
  visible : Value α
  deriving DecidableEq, Repr, Inhabited

/-- A text, which may be bound to a data field. -/
structure TextBody (α : Type) where
  content : String
  fontSize : α
  fontFamily : String
  fontWeight : FontWeight
  color : String
  align : TextAlign
  lineHeight : Value α
  letterSpacing : Value α
  isVariable : Value α
  dataField : Option String
  deriving DecidableEq, Repr, Inhabited

structure BarcodeBody (α : Type) where
  value : String
  symbology : Symbology
  showText : Value α
  textPosition : TextPosition
  isVariable : Value α
  dataField : Option String
  deriving DecidableEq, Repr, Inhabited

structure QrBody (α : Type) where
  value : String
  level : CorrectionLevel
  isVariable : Value α
  dataField : Option String
  deriving DecidableEq, Repr, Inhabited

structure ImageBody where
  src : String
  objectFit : ObjectFit
  deriving DecidableEq, Repr, Inhabited

structure ShapeBody (α : Type) where
  form : ShapeForm
  fill : String
  stroke : String
  strokeWidth : α
  cornerRadius : α
  deriving DecidableEq, Repr, Inhabited

structure LineBody (α : Type) where
  x2 : α
  y2 : α
  stroke : String
  strokeWidth : α
  strokeStyle : StrokeStyle
  deriving DecidableEq, Repr, Inhabited

/-- What is drawn in a frame. -/
inductive Body (α : Type) where
  | text (body : TextBody α)
  | barcode (body : BarcodeBody α)
  | qrcode (body : QrBody α)
  | image (body : ImageBody)
  | shape (body : ShapeBody α)
  | line (body : LineBody α)
  deriving DecidableEq, Repr, Inhabited

/-- A frame with what is drawn in it. -/
structure Element (α : Type) where
  frame : Frame α
  body : Body α
  deriving DecidableEq, Repr, Inhabited

/-- The kind of a body. -/
def Body.kind {α : Type} : Body α → Kind
  | .text _ => .text
  | .barcode _ => .barcode
  | .qrcode _ => .qrcode
  | .image _ => .image
  | .shape _ => .shape
  | .line _ => .line

/-- The frame of a line that ends at `(x2, y2)`. -/
def Frame.spanning {α : Type} [Scalar α] (frame : Frame α) (x2 y2 : α) :
    Except Fault (Frame α) := do
  let width ← Scalar.sub x2 frame.x
  let height ← Scalar.sub y2 frame.y
  return { frame with width := Scalar.abs width, height := Scalar.abs height }

namespace Element

variable {α : Type}

def id (e : Element α) : String := e.frame.id

def kind (e : Element α) : Kind := e.body.kind

/-- The same element under another id. -/
def withId (e : Element α) (id : String) : Element α :=
  { e with frame := { e.frame with id := id } }

def isLocked [Scalar α] (e : Element α) : Bool := e.frame.locked.truthy

def isVisible [Scalar α] (e : Element α) : Bool := e.frame.visible.truthy

end Element

end LabelLayout
