import LabelLayout.Document

/-!
# `LabelLayout.Design.Record`: documents as plain data

The record of a document is the content of a design file: an object with the
size, the elements and the settings. Elements are records too, their type first
and a null field left out. Reading fills in what is left out with the defaults of
the kind and passes over keys that the kind does not have.

Every reader says what is wrong with a record as an `Error` of the format family;
the fault of arithmetic that a line's ends can cause is the one that keeps its
own.
-/

set_option autoImplicit false

namespace LabelLayout

/-! ## Elements -/

/-- The record of an element. -/
def Element.record (e : Element Number) : Members :=
  ("type", Choice.datum e.kind) ::
    (e.kind.attributes.map fun a => (a.key, e.get a)).filter fun (_, v) => v ≠ .null

/-- Fields by key, the others being the defaults of a kind. -/
def Fields.ofRecord (kind : Kind) (members : Members) : Fields := fun a =>
  (members.lookup a.key).getD (kind.default a)

/-- Whether a cause is a defect of the part it was found in: a value of the wrong
kind, or one that is not admitted. -/
def Error.isDefect (e : Error) : Bool :=
  [Family.type, Family.value, Family.gridSize].contains e.family

/-- What reading a part of a record gives, a defect being reported as one of the
part. -/
def Error.within {β : Type} (wrap : Error → Error) : Except Error β → Except Error β
  | .ok b => .ok b
  | .error e => .error (if e.isDefect then wrap e else e)

/-- The element of a record. -/
def Element.ofRecord : Datum → Except Error (Element Number)
  | .object members => do
    let type := (members.lookup "type").getD .null
    let some kind ← Kind.ofDatum? type | throw (.entryType type)
    let fields := Fields.ofRecord kind members
    if !Members.has members "id" then throw (.entryWithoutId kind)
    Error.within (.entryInvalid kind (fields .id)) (Element.assemble kind fields)
  | got => .error (.entryNotObject got)

/-- The element of an argument, and none for what is no record. -/
def Element.ofArgument? : Datum → Except Error (Option (Element Number))
  | .object members => return some (← Element.ofRecord (.object members))
  | _ => return none

/-- The element of an argument. What is no record has none of the parts that an
element has. -/
def Element.present : Option (Element Number) → Except Error (Element Number)
  | some e => .ok e
  | none => .error .noSuchPart

/-- The elements of several arguments. All records are read before what is no
record is refused. -/
def Element.ofArguments (arguments : List Datum) : Except Error (List (Element Number)) := do
  let found ← arguments.mapM ofArgument?
  found.mapM present

/-! ## Sizes and settings -/

/-- The record of a size. -/
def LabelSize.record (size : LabelSize Number) : Members := [
  ("name", size.name),
  ("width", .num size.width),
  ("height", .num size.height),
  ("category", Choice.datum size.category)]

/-- A dimension that a record must have. -/
def LabelSize.requiredKey (members : Members) (key : String) : Except Error Datum :=
  match members.lookup key with
  | some v => .ok v
  | none => .error (.sizeMissing key)

/-- The size of a record. Its name is a text, whatever the record holds. -/
def LabelSize.ofRecord : Datum → Except Error (LabelSize Number)
  | .object members => do
    let name := ((members.lookup "name").getD (.str "Custom")).display
    let width ← requiredKey members "width"
    let height ← requiredKey members "height"
    let category := (members.lookup "category").getD (.str "custom")
    Error.within .sizeInvalid (check (.str name) width height category)
  | _ => .error .sizeNotObject

/-- The record of the settings. -/
def Settings.record (settings : Settings Number) : Members := [
  ("gridSize", .num settings.gridSize),
  ("showGrid", settings.showGrid),
  ("showRulers", settings.showRulers),
  ("units", Choice.datum settings.units)]

/-- The settings of a record; null stands for the initial ones. -/
def Settings.ofRecord : Datum → Except Error (Settings Number)
  | .null => .ok initial
  | .object members =>
    Error.within .settingsInvalid <| check
      ((members.lookup "gridSize").getD (.num initial.gridSize))
      ((members.lookup "showGrid").getD initial.showGrid)
      ((members.lookup "showRulers").getD initial.showRulers)
      ((members.lookup "units").getD (Choice.datum initial.units))
  | _ => .error .settingsNotObject

/-! ## Documents -/

/-- The record of a document. -/
def Document.record (d : Document Number) : Datum :=
  .object [
    ("size", .object d.size.record),
    ("elements", .list (d.elements.map fun e => .object e.record)),
    ("settings", .object d.settings.record)]

/-- The document of a record. -/
def Document.ofRecord : Datum → Except Error (Document Number)
  | .object members => do
    let size := (members.lookup "size").getD .null
    if !size.truthy then throw .designWithoutSize
    let .list entries := (members.lookup "elements").getD .null
      | throw .designElementsNotList
    let size ← LabelSize.ofRecord size
    let elements ← entries.mapM Element.ofRecord
    let settings ← Settings.ofRecord ((members.lookup "settings").getD .null)
    Error.within .designInvalid (make size elements settings)
  | _ => .error .designNotObject

end LabelLayout
