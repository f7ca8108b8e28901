import LabelLayout.Json.Reader
import LabelLayout.Template

/-!
# `LabelLayout.Template.Library`: the built-in templates

Four templates come with the library, one for each category of use. A template
can also be given in full as plain data.
-/

set_option autoImplicit false

namespace LabelLayout

namespace LabelTemplate

/-- A whole number of percent, inches or points. -/
def whole (n : Int) : Datum := .num (.int n)

/-- A number of tenths as a double. -/
def tenths (n : Int) : Datum := .num (.fraction n 10)

/-- The place and extent of an element. -/
def place (x y width height : Datum) : Members :=
  [("x", x), ("y", y), ("width", width), ("height", height)]

/-- The look of a text in a built-in template. -/
structure Look where
  weight : FontWeight := .normal
  align : TextAlign := .left
  color : String := "#000000"

/-- The spec of a text, bound to a field if one is named. -/
def textSpec (box : Members) (content : String) (size : Int)
    (field : Option String) (look : Look) : Members :=
  ("type", .str "text") :: box ++ [
    ("content", .str content),
    ("font_size", whole size),
    ("font_family", .str "Arial"),
    ("font_weight", Choice.datum look.weight),
    ("color", .str look.color),
    ("align", Choice.datum look.align)] ++
  match field with
  | none => []
  | some field => [("is_variable", .bool true), ("data_field", .str field)]

/-- The spec of a horizontal rule. -/
def ruleSpec (x y x2 strokeWidth : Datum) : Members := [
  ("type", .str "line"), ("x", x), ("y", y), ("x2", x2), ("y2", y),
  ("stroke", .str "#000000"), ("stroke_width", strokeWidth)]

/-- The spec of a Code 128 bar code that is bound to a field. -/
def barcodeSpec (box : Members) (value : String) (showText : Bool)
    (field : String) : Members :=
  ("type", .str "barcode") :: box ++ [
    ("value", .str value),
    ("symbology", .str "CODE128"),
    ("show_text", .bool showText),
    ("text_position", .str "bottom"),
    ("is_variable", .bool true),
    ("data_field", .str field)]

def bold : Look := { weight := .bold }

def boldCenter : Look := { weight := .bold, align := .center }

def right : Look := { align := .right }

def gray : Look := { color := "#666666" }

def grayRight : Look := { align := .right, color := "#666666" }

def sizeNamed (name : String) (width height : Int) (category : SizeCategory) :
    LabelSize Number :=
  ⟨.str name, .int width, .int height, category⟩

/-- A location code above its bar code. -/
def locationBasic : LabelTemplate where
  id := .str "location-basic"
  name := .str "Basic Location Label"
  description := .str "Simple location code with barcode"
  category := .str "location"
  size := sizeNamed "2×1 Small" 2 1 .location
  specs := [
    textSpec (place (whole 5) (whole 15) (whole 90) (whole 26)) "Location Code" 18
      (some "location.full") boldCenter,
    barcodeSpec (place (whole 5) (whole 47) (whole 90) (whole 42)) "WH01A01S0101" false
      "location.full"]

/-- A product with its stock. -/
def productStandard : LabelTemplate where
  id := .str "product-standard"
  name := .str "Product Label"
  description := .str "Product name, SKU, and barcode"
  category := .str "product"
  size := sizeNamed "2×4 Product" 2 4 .product
  specs := [
    textSpec (place (whole 5) (tenths 25) (whole 90) (whole 8)) "Product Name" 16
      (some "product.name") bold,
    textSpec (place (whole 5) (tenths 115) (whole 90) (whole 5)) "SKU" 12
      (some "product.sku") gray,
    barcodeSpec (place (whole 5) (whole 21) (whole 90) (tenths 155)) "123456789012" true
      "product.barcode",
    textSpec (place (whole 5) (whole 39) (whole 45) (whole 5))
      "Qty: \x7b\x7binventory.quantity\x7d\x7d" 11 (some "inventory.quantity") {},
    textSpec (place (whole 52) (whole 39) (whole 45) (whole 5))
      "Lot: \x7b\x7binventory.lot\x7d\x7d" 11 (some "inventory.lot") right]

/-- A pallet with a QR code. -/
def palletComprehensive : LabelTemplate where
  id := .str "pallet-comprehensive"
  name := .str "Pallet Label"
  description := .str "Complete pallet information with QR code"
  category := .str "pallet"
  size := sizeNamed "4×4 Pallet" 4 4 .pallet
  specs := [
    textSpec (place (whole 5) (whole 5) (whole 90) (whole 10)) "Pallet Number" 24
      (some "pallet.number") boldCenter,
    ruleSpec (whole 5) (whole 18) (whole 95) (tenths 20),
    ("type", .str "qrcode") :: place (whole 5) (whole 23) (whole 30) (whole 30) ++ [
      ("value", .str "PAL-20240115-001"),
      ("error_correction_level", .str "M"),
      ("is_variable", .bool true),
      ("data_field", .str "pallet.number")],
    textSpec (place (whole 42) (whole 23) (whole 25) (whole 7)) "Location:" 14 none bold,
    textSpec (place (whole 67) (whole 23) (whole 28) (whole 7))
      "\x7b\x7blocation.full\x7d\x7d" 14 (some "location.full") {},
    textSpec (place (whole 42) (whole 31) (whole 25) (whole 7)) "Weight:" 14 none bold,
    textSpec (place (whole 67) (whole 31) (whole 28) (whole 7))
      "\x7b\x7bpallet.weight\x7d\x7d" 14 (some "pallet.weight") {},
    textSpec (place (whole 42) (whole 39) (whole 25) (whole 7)) "Status:" 14 none bold,
    textSpec (place (whole 67) (whole 39) (whole 28) (whole 7))
      "\x7b\x7bpallet.status\x7d\x7d" 14 (some "pallet.status") {},
    ruleSpec (whole 5) (whole 60) (whole 95) (tenths 20),
    textSpec (place (whole 5) (whole 62) (whole 45) (whole 5))
      "Date: \x7b\x7bsystem.date\x7d\x7d" 12 (some "system.date") gray,
    textSpec (place (whole 52) (whole 62) (whole 45) (whole 5))
      "User: \x7b\x7bsystem.user\x7d\x7d" 12 (some "system.user") grayRight]

/-- A frame with a title. -/
def shippingStandard : LabelTemplate where
  id := .str "shipping-standard"
  name := .str "Shipping Label"
  description := .str "Standard 4x6 shipping label format"
  category := .str "shipping"
  size := sizeNamed "4×6 Shipping" 4 6 .shipping
  specs := [
    ("type", .str "shape") :: place (tenths 25) (whole 2) (whole 95) (whole 96) ++ [
      ("shape_type", .str "rectangle"),
      ("stroke", .str "#000000"),
      ("stroke_width", tenths 20),
      ("fill", .str "transparent")],
    textSpec (place (whole 5) (tenths 35) (whole 90) (whole 5)) "SHIPPING LABEL" 20 none
      boldCenter,
    ruleSpec (whole 5) (tenths 105) (whole 95) (tenths 10)]

def library : List LabelTemplate :=
  [locationBasic, productStandard, palletComprehensive, shippingStandard]

/-- The built-in template with an id. -/
def find (id : Datum) : Except Error LabelTemplate :=
  match library.find? fun t => t.id = id with
  | some t => .ok t
  | none => .error (.unknownTemplate id)

/-- The categories of the built-in templates, each with its ids. -/
def idsByCategory : List (Datum × List Datum) :=
  (library.map LabelTemplate.category).eraseDups.map fun category =>
    (category, (library.filter fun t => t.category = category).map LabelTemplate.id)

/-- A name and its value from what offers two things. -/
def pairOf (v : Datum) : Except Error (Datum × Datum) :=
  match v.items? with
  | none => .error .wrongKind
  | some [name, value] => if name.isKey then .ok (name, value) else .error .notAKey
  | some _ => .error .notAPair

/-- A spec from plain data: an object, or pairs of a name and a value. A name has to
be a text. -/
def specOf : Datum → Except Error Members
  | .object members => .ok members
  | v => do
    let some items := v.items? | throw .wrongKind
    let pairs ← items.mapM pairOf
    let members := pairs.filterMap fun (name, value) => name.text?.map (·, value)
    let _ ← Members.part members "type"
    if members.length < pairs.length then throw .wrongKind
    return Json.mergeMembers members

/-- A template from plain data: the id of a built-in one, or all its parts. -/
def ofDatum : Datum → Except Error LabelTemplate
  | .object members => do
    let id ← Members.part members "id"
    let name ← Members.part members "name"
    let description ← Members.part members "description"
    let category ← Members.part members "category"
    let size ← LabelSize.ofRecord (← Members.part members "size")
    let some items := (← Members.part members "elements").items? | throw .wrongKind
    return { id, name, description, category, size, specs := ← items.mapM specOf }
  | .str id => find (.str id)
  | _ => .error .wrongKind

/-- A template as plain data. -/
def record (t : LabelTemplate) : Datum :=
  .object [
    ("id", t.id), ("name", t.name), ("description", t.description),
    ("category", t.category), ("size", .object t.size.record),
    ("elements", .list (t.specs.map .object))]

end LabelTemplate

end LabelLayout
