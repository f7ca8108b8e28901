import LabelLayout.Check
import LabelLayout.Element.Attribute

/-!
# `LabelLayout.Element.Assemble`: elements from plain data

`Element.assemble` builds an element of a kind from a value for each of its
fields. It checks the frame first and then the body, field by field, and the
first field that does not fit is the error. A line is the exception: its ends
come first, because the extent of its frame follows from them and whatever was
given for it is passed over.

Flags and text metrics are taken as they are.
-/

set_option autoImplicit false

namespace LabelLayout

/-- A value for every field. -/
abbrev Fields := Attribute → Datum

namespace Fields

/-- A field that must hold a number. -/
def number (fields : Fields) (a : Attribute) : Except Error Number :=
  Check.number a.name (fields a)

/-- A field that must hold a text. -/
def text (fields : Fields) (a : Attribute) : Except Error String :=
  Check.text a.name (fields a)

/-- A field that must hold a text or null. -/
def textOrNull (fields : Fields) (a : Attribute) : Except Error (Option String) :=
  Check.textOrNull a.name (fields a)

/-- A field that must hold one of a set of words. -/
def choice (τ : Type) [Choice τ] (fields : Fields) (a : Attribute) : Except Error τ :=
  Check.choice τ a.name (fields a)

/-- The id, a text that is not empty. -/
def id (fields : Fields) : Except Error String :=
  match fields .id with
  | .str s => if s.isEmpty then .error (.emptyId (.str s)) else .ok s
  | got => .error (.emptyId got)

/-- The distance from a field, which no check has seen yet, to a number. -/
def distance (fields : Fields) (origin : Attribute) (x : Number) : Except Error Number := do
  let start ← (fields origin).operand
  let difference ← Number.sub x start
  return difference.abs

/-- The fields with the extent of a frame put in. -/
def withExtent (fields : Fields) (width height : Number) : Fields
  | .width => .num width
  | .height => .num height
  | a => fields a

end Fields

/-- A frame from its fields. -/
def Frame.assemble (fields : Fields) : Except Error (Frame Number) := do
  let id ← fields.id
  let x ← fields.number .x
  let y ← fields.number .y
  let width ← fields.number .width
  let height ← fields.number .height
  let rotation ← fields.number .rotation
  return ⟨id, x, y, width, height, rotation, fields .locked, fields .visible⟩

def TextBody.assemble (fields : Fields) : Except Error (TextBody Number) := do
  let fontSize ← fields.number .fontSize
  let content ← fields.text .content
  let fontFamily ← fields.text .fontFamily
  let color ← fields.text .color
  let dataField ← fields.textOrNull .dataField
  let fontWeight ← fields.choice FontWeight .fontWeight
  let align ← fields.choice TextAlign .align
  return {
    content, fontSize, fontFamily, fontWeight, color, align, dataField
    lineHeight := fields .lineHeight
    letterSpacing := fields .letterSpacing
    isVariable := fields .isVariable }

def BarcodeBody.assemble (fields : Fields) : Except Error (BarcodeBody Number) := do
  let value ← fields.text .value
  let dataField ← fields.textOrNull .dataField
  let symbology ← fields.choice Symbology .symbology
  let textPosition ← fields.choice TextPosition .textPosition
  return {
    value, symbology, textPosition, dataField
    showText := fields .showText
    isVariable := fields .isVariable }

def QrBody.assemble (fields : Fields) : Except Error (QrBody Number) := do
  let value ← fields.text .value
  let dataField ← fields.textOrNull .dataField
  let level ← fields.choice CorrectionLevel .errorCorrectionLevel
  return { value, level, dataField, isVariable := fields .isVariable }

def ImageBody.assemble (fields : Fields) : Except Error ImageBody := do
  let src ← fields.text .src
  let objectFit ← fields.choice ObjectFit .objectFit
  return { src, objectFit }

def ShapeBody.assemble (fields : Fields) : Except Error (ShapeBody Number) := do
  let fill ← fields.text .fill
  let stroke ← fields.text .stroke
  let form ← fields.choice ShapeForm .shapeType
  let strokeWidth ← fields.number .strokeWidth
  let cornerRadius ← fields.number .cornerRadius
  return { form, fill, stroke, strokeWidth, cornerRadius }

/-- A line from its fields: the ends, the frame they span, the stroke. -/
def assembleLine (fields : Fields) : Except Error (Element Number) := do
  let x2 ← fields.number .x2
  let y2 ← fields.number .y2
  let width ← fields.distance .x x2
  let height ← fields.distance .y y2
  let frame ← Frame.assemble (fields.withExtent width height)
  let stroke ← fields.text .stroke
  let strokeWidth ← fields.number .strokeWidth
  let strokeStyle ← fields.choice StrokeStyle .strokeStyle
  return ⟨frame, .line { x2, y2, stroke, strokeWidth, strokeStyle }⟩

/-- An element of a kind from its fields. -/
def Element.assemble (kind : Kind) (fields : Fields) : Except Error (Element Number) :=
  match kind with
  | .line => assembleLine fields
  | .text => do return ⟨← Frame.assemble fields, .text (← TextBody.assemble fields)⟩
  | .barcode => do return ⟨← Frame.assemble fields, .barcode (← BarcodeBody.assemble fields)⟩
  | .qrcode => do return ⟨← Frame.assemble fields, .qrcode (← QrBody.assemble fields)⟩
  | .image => do return ⟨← Frame.assemble fields, .image (← ImageBody.assemble fields)⟩
  | .shape => do return ⟨← Frame.assemble fields, .shape (← ShapeBody.assemble fields)⟩

/-- The kind that a value names, and none for a value that names no kind. -/
def Kind.ofDatum? : Datum → Except Error (Option Kind)
  | .str name => .ok (Choice.ofName? name)
  | v => if v.isKey then .ok none else .error .notAKey

/-- The field names of a kind. -/
def Kind.fieldNames (kind : Kind) : List String := kind.attributes.map Attribute.name

/-- Fields by name, with what is not named taken from elsewhere. -/
def Fields.ofMembers (members : Members) (otherwise : Fields) : Fields := fun a =>
  (members.lookup a.name).getD (otherwise a)

/-- Refuses changes of the id and the type. -/
def Members.checkChanges (changes : Members) : Except Error Unit :=
  if changes.has "element" then .error (.unexpectedArgument "element")
  else if changes.has "id" || changes.has "type" then .error .fixedField
  else .ok ()

/-- A copy of an element with some fields changed. The id and the type stay. -/
def Element.modify (e : Element Number) (changes : Members) : Except Error (Element Number) := do
  changes.checkChanges
  changes.checkNames e.kind.fieldNames
  Element.assemble e.kind (.ofMembers changes e.get)

end LabelLayout
