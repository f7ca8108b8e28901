import LabelLayout.Check
import LabelLayout.Element

/-!
# `LabelLayout.Element.Attribute`: the fields of elements by name

Every field of an element is an `Attribute` with two spellings: the one that
edits and templates use (`font_size`) and the key of design files (`fontSize`).
`Kind.attributes` lists the fields of a kind in the order of design files,
`Kind.default` is what a field holds when nothing is said, and `Element.get`
reads a field as plain data. Reading, writing, editing and templates all go
through this one table.
-/

set_option autoImplicit false

namespace LabelLayout

inductive Attribute where
  | id | x | y | width | height | rotation | locked | visible
  | content | fontSize | fontFamily | fontWeight | color | align | lineHeight
  | letterSpacing | isVariable | dataField
  | value | symbology | showText | textPosition | errorCorrectionLevel
  | src | objectFit
  | shapeType | fill | stroke | strokeWidth | cornerRadius
  | x2 | y2 | strokeStyle
  deriving DecidableEq, Repr, Inhabited

namespace Attribute

/-- The name of a field in edits, templates and messages. -/
def name : Attribute → String
  | .id => "id"
  | .x => "x"
  | .y => "y"
  | .width => "width"
  | .height => "height"
  | .rotation => "rotation"
  | .locked => "locked"
  | .visible => "visible"
  | .content => "content"
  | .fontSize => "font_size"
  | .fontFamily => "font_family"
  | .fontWeight => "font_weight"
  | .color => "color"
  | .align => "align"
  | .lineHeight => "line_height"
  | .letterSpacing => "letter_spacing"
  | .isVariable => "is_variable"
  | .dataField => "data_field"
  | .value => "value"
  | .symbology => "symbology"
  | .showText => "show_text"
  | .textPosition => "text_position"
  | .errorCorrectionLevel => "error_correction_level"
  | .src => "src"
  | .objectFit => "object_fit"
  | .shapeType => "shape_type"
  | .fill => "fill"
  | .stroke => "stroke"
  | .strokeWidth => "stroke_width"
  | .cornerRadius => "corner_radius"
  | .x2 => "x2"
  | .y2 => "y2"
  | .strokeStyle => "stroke_style"

/-- The key of a field in design files. -/
def key : Attribute → String
  | .id => "id"
  | .x => "x"
  | .y => "y"
  | .width => "width"
  | .height => "height"
  | .rotation => "rotation"
  | .locked => "locked"
  | .visible => "visible"
  | .content => "content"
  | .fontSize => "fontSize"
  | .fontFamily => "fontFamily"
  | .fontWeight => "fontWeight"
  | .color => "color"
  | .align => "align"
  | .lineHeight => "lineHeight"
  | .letterSpacing => "letterSpacing"
  | .isVariable => "isVariable"
  | .dataField => "dataField"
  | .value => "value"
  | .symbology => "format"
  | .showText => "showText"
  | .textPosition => "textPosition"
  | .errorCorrectionLevel => "errorCorrectionLevel"
  | .src => "src"
  | .objectFit => "objectFit"
  | .shapeType => "shapeType"
  | .fill => "fill"
  | .stroke => "stroke"
  | .strokeWidth => "strokeWidth"
  | .cornerRadius => "cornerRadius"
  | .x2 => "x2"
  | .y2 => "y2"
  | .strokeStyle => "strokeStyle"

end Attribute

/-- The fields that every kind has. -/
def frameAttributes : List Attribute :=
  [.id, .x, .y, .width, .height, .rotation, .locked, .visible]

namespace Kind

/-- The fields that a kind adds to those of the frame. -/
def bodyAttributes : Kind → List Attribute
  | .text => [.content, .fontSize, .fontFamily, .fontWeight, .color, .align, .lineHeight,
      .letterSpacing, .isVariable, .dataField]
  | .barcode => [.value, .symbology, .showText, .textPosition, .isVariable, .dataField]
  | .qrcode => [.value, .errorCorrectionLevel, .isVariable, .dataField]
  | .image => [.src, .objectFit]
  | .shape => [.shapeType, .fill, .stroke, .strokeWidth, .cornerRadius]
  | .line => [.x2, .y2, .stroke, .strokeWidth, .strokeStyle]

/-- The fields of a kind in the order of design files. -/
def attributes (kind : Kind) : List Attribute := frameAttributes ++ kind.bodyAttributes

/-- A whole number as a double. -/
def real (n : Int) : Datum := .num (.fraction n 1)

/-- What a field of a kind holds when nothing is said. Kinds differ in the size
of their frame, and a bar code starts lower. -/
def default (kind : Kind) : Attribute → Datum
  | .x => real 5
  | .y => match kind with
    | .barcode => real 35
    | _ => real 5
  | .width => match kind with
    | .barcode => real 70
    | .qrcode | .image => real 25
    | _ => real 50
  | .height => match kind with
    | .barcode => real 40
    | .shape => real 30
    | _ => real 25
  | .rotation => real 0
  | .locked => .bool false
  | .visible => .bool true
  | .content => .str "Label Text"
  | .fontSize => real 14
  | .fontFamily => .str "Arial"
  | .fontWeight => .str "normal"
  | .color => .str "#000000"
  | .align => .str "left"
  | .isVariable => .bool false
  | .value => match kind with
    | .barcode => .str "123456789"
    | _ => .str "https://example.com"
  | .symbology => .str "CODE128"
  | .showText => .bool true
  | .textPosition => .str "bottom"
  | .errorCorrectionLevel => .str "M"
  | .src => .str "/placeholder-logo.png"
  | .objectFit => .str "contain"
  | .shapeType => .str "rectangle"
  | .fill => .str "transparent"
  | .stroke => .str "#000000"
  | .strokeWidth => real 2
  | .cornerRadius => real 0
  | .x2 => real 55
  | .y2 => real 5
  | .strokeStyle => .str "solid"
  | .id | .lineHeight | .letterSpacing | .dataField => .null

end Kind

section

variable {α : Type}

/-- A field of a frame; null for a field that frames do not have. -/
def Frame.get (frame : Frame α) : Attribute → Value α
  | .id => .str frame.id
  | .x => .num frame.x
  | .y => .num frame.y
  | .width => .num frame.width
  | .height => .num frame.height
  | .rotation => .num frame.rotation
  | .locked => frame.locked
  | .visible => frame.visible
  | _ => .null

def TextBody.get (body : TextBody α) : Attribute → Value α
  | .content => .str body.content
  | .fontSize => .num body.fontSize
  | .fontFamily => .str body.fontFamily
  | .fontWeight => Choice.datum body.fontWeight
  | .color => .str body.color
  | .align => Choice.datum body.align
  | .lineHeight => body.lineHeight
  | .letterSpacing => body.letterSpacing
  | .isVariable => body.isVariable
  | .dataField => optionalText body.dataField
  | _ => .null

def BarcodeBody.get (body : BarcodeBody α) : Attribute → Value α
  | .value => .str body.value
  | .symbology => Choice.datum body.symbology
  | .showText => body.showText
  | .textPosition => Choice.datum body.textPosition
  | .isVariable => body.isVariable
  | .dataField => optionalText body.dataField
  | _ => .null

def QrBody.get (body : QrBody α) : Attribute → Value α
  | .value => .str body.value
  | .errorCorrectionLevel => Choice.datum body.level
  | .isVariable => body.isVariable
  | .dataField => optionalText body.dataField
  | _ => .null

def ImageBody.get (body : ImageBody) : Attribute → Value α
  | .src => .str body.src
  | .objectFit => Choice.datum body.objectFit
  | _ => .null

def ShapeBody.get (body : ShapeBody α) : Attribute → Value α
  | .shapeType => Choice.datum body.form
  | .fill => .str body.fill
  | .stroke => .str body.stroke
  | .strokeWidth => .num body.strokeWidth
  | .cornerRadius => .num body.cornerRadius
  | _ => .null

def LineBody.get (body : LineBody α) : Attribute → Value α
  | .x2 => .num body.x2
  | .y2 => .num body.y2
  | .stroke => .str body.stroke
  | .strokeWidth => .num body.strokeWidth
  | .strokeStyle => Choice.datum body.strokeStyle
  | _ => .null

/-- A field of a body; null for a field that the kind does not have. -/
def Body.get : Body α → Attribute → Value α
  | .text body => body.get
  | .barcode body => body.get
  | .qrcode body => body.get
  | .image body => body.get
  | .shape body => body.get
  | .line body => body.get

/-- A field of an element as plain data. -/
def Element.get (e : Element α) (a : Attribute) : Value α :=
  if a ∈ frameAttributes then e.frame.get a else e.body.get a

end

end LabelLayout
