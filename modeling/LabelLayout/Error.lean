import LabelLayout.Barcode.Refusal
import LabelLayout.Fault
import LabelLayout.Style
import LabelLayout.Value.Literal

/-!
# `LabelLayout.Error`: what can be wrong with a request

An `Error` is a cause: which rule was broken, and by which value. Two views of
it are all that callers see.

* `Error.family` is the family a cause belongs to. Hosts handle errors by family;
  the print pipeline folds the families into its own (`LabelLayout.Print.Report`).
* `Error.message` is the wording, and `none` for a cause that has no words of
  this library's own: a fault of arithmetic, or an argument that no operation
  takes.
-/

set_option autoImplicit false

namespace LabelLayout

/-- The families of errors. The first four are the label design errors, the next
four the printing errors; the rest are general. -/
inductive Family where
  | design | gridSize | format | barcodeData
  | printing | resolution | printer | printJob
  | value | key | type | runtime | general
  | overflow | zeroDivision | attribute | encoding | depth | memory
  deriving DecidableEq, Repr, Inhabited

/-- The causes of errors. -/
inductive Error where
  /-- Arithmetic failed. -/
  | fault (fault : Fault)
  /-- A list or an object stood where a name is looked up. -/
  | notAKey
  /-- An argument of that name is not taken, or is taken from elsewhere. -/
  | unexpectedArgument (name : String)
  /-- An argument without a default is absent. -/
  | missingArgument (name : String)
  /-- A value has no such part, because it is of another kind. -/
  | noSuchPart
  /-- A value of this kind cannot be taken apart here. -/
  | wrongKind
  /-- An object lacks a part that has to be there. -/
  | missingPart (name : String)
  /-- Something else stands where a name and its value are looked for. -/
  | notAPair
  /-- A date or a time of day that does not exist. -/
  | impossibleDate
  /-- A text holds data that is nested too deep. -/
  | tooDeep
  /-- An id is not a text, or is empty. -/
  | emptyId (got : Datum)
  /-- A field must be a number. -/
  | notNumber (field : String) (got : Datum)
  /-- A field must be a text. -/
  | notText (field : String) (got : Datum)
  /-- A field must be one of a set of words. -/
  | notChoice (field : String) (allowed : List String) (got : Datum)
  /-- No kind of element has that name. -/
  | unknownKind (got : Datum)
  /-- An id was supplied for an element that is being created. -/
  | idSupplied
  /-- A change of an id or of a type. -/
  | fixedField
  /-- A label is not wider and higher than nothing. -/
  | sizeNotPositive (width height : Number)
  /-- A grid is not wider than nothing. -/
  | gridNotPositive (got : Datum)
  /-- Two elements of a document share an id. -/
  | duplicateId (id : String)
  | unknownSize (name : Datum)
  | unknownTemplate (id : Datum)
  | unknownAlignMode (got : Datum)
  | unknownDirection (got : Datum)
  /-- Something other than an element was to be resolved. -/
  | unsupportedElement (got : Datum)
  /-- An entry of a design's elements is no object. -/
  | entryNotObject (got : Datum)
  /-- The type of an entry names no kind of element. -/
  | entryType (got : Datum)
  | entryWithoutId (kind : Kind)
  /-- The fields of an entry do not make an element. -/
  | entryInvalid (kind : Kind) (id : Datum) (cause : Error)
  | sizeNotObject
  | sizeMissing (key : String)
  | sizeInvalid (cause : Error)
  | settingsNotObject
  | settingsInvalid (cause : Error)
  | designNotObject
  | designWithoutSize
  | designElementsNotList
  | designInvalid (cause : Error)
  /-- A value does not encode. -/
  | barcode (refusal : Barcode.Refusal)
  /-- A text has too few digits for the check digit of a retail code. -/
  | tooFewDigits (code : String) (length : Nat)
  | invalidDpi (got : Datum)
  | zoomNotPositive (got : Datum)
  /-- A number of a print sheet lies outside its limits. -/
  | sheetLimit (field : String) (low high : Int) (got : Datum)
  | profileDpi (name got : Datum)
  | unknownProfile (name : Datum)
  deriving DecidableEq, Repr, Inhabited

/-- The family of a fault. -/
def Fault.family : Fault → Family
  | .operand => .type
  | .tooLarge => .overflow
  | .notANumber => .value
  | .infinite => .overflow
  | .divisionByZero => .zeroDivision
  | .gridNotPositive => .gridSize
  | .notADecimalDigit => .value
  | .notEncodable => .encoding
  | .tooManyDigits => .value
  | .noMemory => .memory

namespace Error

/-- The family of a cause. -/
def family : Error → Family
  | .fault f => f.family
  | .notAKey | .unexpectedArgument _ | .missingArgument _ | .wrongKind => .type
  | .noSuchPart => .attribute
  | .missingPart _ => .key
  | .impossibleDate | .notAPair => .value
  | .tooDeep => .depth
  | .notNumber .. | .notText .. | .unsupportedElement _ => .type
  | .emptyId _ | .notChoice .. | .unknownKind _ | .idSupplied | .fixedField => .value
  | .sizeNotPositive .. | .duplicateId _ | .unknownAlignMode _ | .unknownDirection _ => .value
  | .gridNotPositive _ => .gridSize
  | .unknownSize _ | .unknownTemplate _ => .key
  | .entryNotObject _ | .entryType _ | .entryWithoutId _ | .entryInvalid .. => .format
  | .sizeNotObject | .sizeMissing _ | .sizeInvalid _ => .format
  | .settingsNotObject | .settingsInvalid _ => .format
  | .designNotObject | .designWithoutSize | .designElementsNotList | .designInvalid _ => .format
  | .barcode _ => .barcodeData
  | .tooFewDigits .. | .zoomNotPositive _ => .value
  | .invalidDpi _ => .resolution
  | .sheetLimit .. | .profileDpi .. | .unknownProfile _ => .printer

/-- What a message calls the kind of a value. -/
def kindName : Datum → String
  | .null => "NoneType"
  | .bool _ => "bool"
  | .num (.int _) => "int"
  | .num (.float _) => "float"
  | .str _ => "str"
  | .list _ => "list"
  | .object _ => "dict"

/-- A text as it stands in a message. -/
def quote (text : String) : String := String.ofList (Text.quoted text.toList)

/-- The wording of a cause, if it has one. -/
def message : Error → Option String
  | .fault _ | .notAKey | .unexpectedArgument _ | .missingArgument _ | .noSuchPart
  | .wrongKind | .missingPart _ | .notAPair | .impossibleDate | .tooDeep => none
  | .emptyId got => s!"element id must be a non-empty string; got {got.literal}"
  | .notNumber field got => s!"{field} must be a number; got {got.literal}"
  | .notText field got => s!"{field} must be a string; got {got.literal}"
  | .notChoice field allowed got =>
    let words := String.intercalate ", " allowed
    s!"{field} must be one of {words}; got {got.literal}"
  | .unknownKind got => s!"Unknown element type {got.literal}"
  | .idSupplied => "Element ids are assigned on creation and cannot be supplied"
  | .fixedField => "Element id and type cannot be changed"
  | .sizeNotPositive width height =>
    let shown (x : Number) := Value.literal (.num x)
    s!"Label size must be positive; got {shown width}x{shown height}"
  | .gridNotPositive got => s!"grid_size must be > 0; got {got.display}"
  | .duplicateId id => s!"Duplicate element id {quote id}"
  | .unknownSize name | .unknownTemplate name => some name.literal
  | .unknownAlignMode got => s!"Unknown align mode {got.literal}"
  | .unknownDirection got => s!"Unknown distribute direction {got.literal}"
  | .unsupportedElement got => s!"Unsupported element {got.literal}"
  | .entryNotObject got => s!"Element entry must be an object; got {kindName got}"
  | .entryType got => s!"Unknown element type {got.literal}"
  | .entryWithoutId kind => s!"{Choice.name kind} element has no id"
  | .entryInvalid kind id cause =>
    cause.message.map fun text =>
      s!"Invalid {Choice.name kind} element {id.literal}: {text}"
  | .sizeNotObject => "size must be an object"
  | .sizeMissing key => s!"size is missing {quote key}"
  | .sizeInvalid cause => cause.message.map fun text => s!"Invalid size: {text}"
  | .settingsNotObject => "settings must be an object"
  | .settingsInvalid cause => cause.message.map fun text => s!"Invalid settings: {text}"
  | .designNotObject => "Design must be a JSON object"
  | .designWithoutSize => "Design has no size"
  | .designElementsNotList => "Design elements must be a list"
  | .designInvalid cause => cause.message
  | .barcode refusal => refusal.message
  | .tooFewDigits code length => s!"{code} requires at least {length} digits for checksum"
  | .invalidDpi got => s!"dpi must be a positive number; got {got.literal}"
  | .zoomNotPositive got => s!"zoom must be > 0; got {got.display}"
  | .sheetLimit field low high got =>
    s!"{field} must be an integer from {low} to {high}; got {got.literal}"
  | .profileDpi name got =>
    s!"Printer {name.literal}: dpi must be a positive integer; got {got.literal}"
  | .unknownProfile name => s!"No printer profile named {name.literal}"

end Error

/-- A fault is an error wherever errors are expected. -/
instance : MonadLift (Except Fault) (Except Error) where
  monadLift
    | .ok x => .ok x
    | .error f => .error (.fault f)

end LabelLayout
