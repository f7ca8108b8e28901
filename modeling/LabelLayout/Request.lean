import LabelLayout.Barcode
import LabelLayout.Barcode.Qr
import LabelLayout.Barcode.Qr.Encoder
import LabelLayout.Binding.Catalogue
import LabelLayout.Design.Record
import LabelLayout.Document.Edit
import LabelLayout.Geometry.Bounds
import LabelLayout.Geometry.Snap
import LabelLayout.Json.Reader
import LabelLayout.Print.Check

/-!
# `LabelLayout.Request`: operations on arguments as they come in

Hosts pass numbers, texts and lists that nobody has checked. A function here
takes such values, looks at each when the operation first needs it, and so
settles which of several errors is reported; the work is done by the checked
operation of the same name.
-/

set_option autoImplicit false

namespace LabelLayout.Request

/-! ## Elements -/

/-- A copy of an element with some fields changed. The names of the changes are
looked at before what is no element is refused. -/
def modify (element : Option (Element Number)) (changes : Members) :
    Except Error (Element Number) :=
  match element with
  | some e => e.modify changes
  | none => do
    changes.checkChanges
    throw .wrongKind

/-! ## Geometry -/

/-- An element that is there and has a box. -/
def boxed (element : Option (Element Number)) : Except Error (Element Number) := do
  let e ← Element.present element
  let _ ← e.bounds
  return e

/-- Elements aligned. All records are read before the mode is looked at, and the
boxes are formed in order before anything is moved. -/
def align (arguments : List Datum) (mode : Datum) : Except Error (List (Element Number)) := do
  let elements ← arguments.mapM Element.ofArgument?
  let mode ← AlignMode.ofDatum mode
  if elements.length < 2 then elements.mapM Element.present
  else Geometry.align (← elements.mapM boxed) mode

/-- Elements with equal gaps. All records are read before the direction is looked
at, and the boxes are formed in order before anything is moved. -/
def distribute (arguments : List Datum) (direction : Datum) :
    Except Error (List (Element Number)) := do
  let elements ← arguments.mapM Element.ofArgument?
  let direction ← Direction.ofDatum direction
  if elements.length < 3 then elements.mapM Element.present
  else Geometry.distribute (← elements.mapM boxed) direction

/-- The box around several elements. All records are read before the first box is
formed. -/
def selectionBounds (arguments : List Datum) : Except Error (Option (Bounds Number)) := do
  let elements ← arguments.mapM Element.ofArgument?
  Geometry.selectionBounds (← elements.mapM boxed)

/-- The multiple of a grid that is nearest to a value. The grid is looked at
first. -/
def snap (value grid : Datum) : Except Error Number := do
  let spacing ← grid.operand
  if spacing.le (.int 0) then throw (.gridNotPositive grid)
  Geometry.snap (← value.operand) spacing

/-- Whether a box contains a point. The position along y is looked at only where
that along x lies between the sides. -/
def contains (b : Bounds Number) (x y : Datum) : Except Error Bool := do
  if b.spansX (← x.operand) then return b.spansY (← y.operand)
  else return false

/-- Whether an element contains a point. -/
def hit (element : Option (Element Number)) (x y : Datum) : Except Error Bool := do
  contains (← (← Element.present element).bounds) x y

/-- Whether an element is visible and contains a point. -/
def shows (x y : Datum) (element : Option (Element Number)) : Except Error Bool := do
  if (← Element.present element).isVisible then hit element x y
  else return false

/-- The topmost visible element that contains a point. What lies below it is not
looked at. -/
def topmostAt (x y : Datum) (elements : List (Option (Element Number))) :
    Except Error (Option (Element Number)) := do
  return (← elements.reverse.findM? (shows x y)).join

/-- On numbers the search among what may be no element is the search among elements. -/
theorem findM?_shows_num (x y : Number) (es : List (Element Number)) :
    (do return (← (es.map some).findM? (shows (.num x) (.num y))).join) =
      (MonadLift.monadLift (Geometry.firstAt x y es) : Except Error (Option (Element Number))) := by
  induction es with
  | nil => rfl
  | cons e rest ih =>
    simp only [List.map_cons, List.findM?, Geometry.firstAt, shows, hit, contains, Element.present,
      Value.operand, Value.operand?, Bounds.contains]
    simp only [bind, Except.bind, pure, Except.pure, MonadLift.monadLift, liftM, monadLift] at ih ⊢
    cases e.isVisible with
    | false => simpa using ih
    | true =>
      cases e.bounds with
      | error f => simp
      | ok b =>
        cases hx : b.spansX x <;> cases hy : b.spansY y <;> simp_all

/-- On numbers and elements, the topmost element is that of the geometry. -/
theorem topmostAt_num (x y : Number) (es : List (Element Number)) :
    topmostAt (.num x) (.num y) (es.map some) =
      MonadLift.monadLift (Geometry.topmostAt x y es) := by
  simp only [topmostAt, Geometry.topmostAt, ← List.map_reverse]
  exact findM?_shows_num x y es.reverse

/-! ## Units -/

/-- The largest length that a text or a list can have, and the largest number of
times that one can be repeated. -/
def maxLength : Int := 0x7fffffffffffffff

/-- The bytes that a text or a list may take. -/
def memory : Int := 0x400000000

/-- What repeating something of a length fails with. What is repeated is still no
number. -/
def repeatFault (tooLong : Fault) (bytesEach length : Nat) (times : Int) : Fault :=
  if maxLength < times then .tooLarge
  else if maxLength < length * times then tooLong
  else if memory < bytesEach * length * times then .noMemory
  else .operand

/-- What a product by a value fails with when the value is no number. A text or a
list times an integer is repeated first. -/
def productFault (v : Datum) (factor : Number) : Fault :=
  match v, factor with
  | .str text, .int n => repeatFault .tooLarge 1 (Text.codePoints text.toList).length n
  | .list items, .int n => repeatFault .noMemory 8 items.length n
  | _, _ => .operand

def inchesToPixels (inches dpi : Datum) : Except Error Int := do
  let dpi ← Print.resolution dpi
  match inches.operand? with
  | some inches => Print.inchesToPixels inches dpi
  | none => throw (.fault (productFault inches dpi))

def pixelsToInches (pixels dpi : Datum) : Except Error Number := do
  let dpi ← Print.resolution dpi
  Print.pixelsToInches (← pixels.operand) dpi

def pointsToPixels (points dpi : Datum) : Except Error Number := do
  let dpi ← Print.resolution dpi
  let perPoint ← Print.pixelsPerPoint dpi
  Number.mul (← points.operand) perPoint

def designToInches (percent extent : Datum) : Except Error Number := do
  let share ← Number.div (← percent.operand) (.fraction 100 1)
  Number.mul share (← extent.operand)

def canvasSize (size : LabelSize Number) (dpi : Datum) : Except Error (Int × Int) := do
  Print.canvasSize size (← Print.resolution dpi)

/-- A drag on screen as a shift of the design. The zoom must not be zero or
negative. -/
def screenDelta (dx dy : Datum) (size : LabelSize Number) (zoom screenDpi : Datum) :
    Except Error (Number × Number) := do
  let screenDpi ← Print.resolution screenDpi
  let factor ← zoom.operand
  if factor.le (.int 0) then throw (.zoomNotPositive zoom)
  let pixelsPerInch ← Number.mul screenDpi factor
  let x ← Print.pixelsToDesign (← dx.operand) pixelsPerInch size.width
  let y ← Print.pixelsToDesign (← dy.operand) pixelsPerInch size.height
  return (x, y)

/-! ## Printing -/

/-- An element in device pixels. The resolution is looked at when the first
length has become inches. -/
def compileElement (e : Element Number) (size : LabelSize Number) (dpi : Datum) :
    Except Error (Element Number) := do
  let _ ← Print.designToInches e.frame.x size.width
  let dpi ← Print.resolution dpi
  e.compile size dpi

/-- A document in device pixels, filled in first when a context is given. -/
def print (d : Document Number) (dpi : Datum) (context : Option Datum) :
    Except Error (PrintDocument Number) := do
  let d := match context with
    | some context => d.resolve context
    | none => d
  d.compile (← Print.resolution dpi)

/-! ## Binding -/

/-- A text with its tokens replaced. What counts as off is given back, and what
is on must be a text. -/
def fill (text context : Datum) : Except Error Datum :=
  match text with
  | .str s => .ok (.str (Binding.fill context s))
  | v => if v.truthy then .error .wrongKind else .ok v

/-! ## Scan codes -/

/-- The text of a value, empty for one that counts as off. -/
def textOf? (v : Datum) : Option String :=
  match v with
  | .str s => some s
  | v => if v.truthy then none else some ""

/-- The outcome of encoding as a result or an error. -/
def ofEncoded {β : Type} : Except Barcode.Failure β → Except Error β
  | .ok b => .ok b
  | .error (.refused refusal) => .error (.barcode refusal)
  | .error (.fault f) => .error (.fault f)

/-- Checks what a value offers one by one against Code 128. Each has to be a text
of one code point. -/
def checkCode128 : List Datum → Except Error Unit
  | [] => .ok ()
  | v :: rest => do
    let some s := v.text? | throw .wrongKind
    if (Text.codePoints s.toList).length ≠ 1 then throw .wrongKind
    let _ ← ofEncoded (Barcode.normalizeCode128 s.toList)
    checkCode128 rest

/-- The printed form of a value under a symbology given by name. A value that is
no text cannot be trimmed; Code 128 trims nothing, and gives back a value of which
it takes all parts. -/
def normalize (symbology value : Datum) : Except Error Datum := do
  let some name := textOf? symbology | throw .noSuchPart
  let some known := Barcode.symbologyOf? name
    | throw (.barcode (.unsupportedSymbology symbology))
  match textOf? value with
  | some s => return .str (← ofEncoded (Barcode.normalize known s))
  | none =>
    if known ≠ .code128 then throw .noSuchPart
    let some items := value.items? | throw .wrongKind
    checkCode128 items
    return value

/-- The number that a text of digits stands for, and none for any other text. -/
def numeral? (text : List Char) : Except Fault (Option Nat) :=
  if text.isEmpty || !text.all Text.isDigit then .ok none
  else match text.mapM Text.decimalValue? with
    | some values =>
      if values.length ≤ maxIntegerDigits then
        .ok (some (values.foldl (fun n digit => 10 * n + digit) 0))
      else .error .notADecimalDigit
    | none => .error .notADecimalDigit

/-- The number of an item that has to be a text. -/
def numeralOf (item : Datum) : Except Error (Option Nat) :=
  match item with
  | .str s => numeral? s.toList
  | _ => .error .noSuchPart

/-- The check digit of the first digits of a text, or of the first items of a
list, each of them as one digit. -/
def checkDigit (code : Barcode.Retail) (name : String) (value : Datum) : Except Error String := do
  let digit ← match value with
    | .str s => code.checkDigit? s.toList
    | .list items => do
      let numerals ← (items.take code.length).mapM numeralOf
      pure (code.checkDigitOf? (numerals.filterMap id))
    | _ => throw .wrongKind
  match digit with
  | some digit => return String.singleton digit
  | none => throw (.tooFewDigits name code.length)

/-- The modules per side of the smallest QR code that holds a value. -/
def qrModules [Barcode.Qr.Package] (value level : Datum) : Except Error Nat := do
  let some s := textOf? value | throw .noSuchPart
  if (Text.trim s.toList).isEmpty then throw (.barcode .qrEmpty)
  if !level.isKey then throw .notAKey
  let .ok known := Check.choice CorrectionLevel "level" level
    | throw (.barcode (.qrUnknownLevel level))
  ofEncoded (Barcode.Qr.moduleCount s known)

end LabelLayout.Request
