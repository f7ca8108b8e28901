import LabelLayout.Binding.Resolve

/-!
# `LabelLayout.Binding.Catalogue`: the fields a label can bind to

The catalogue lists the data fields that a host offers, each with an example.
`sampleContext` is a context made of the examples, in which the system fields
tell a given moment and user. Documents may bind to other fields;
`unknownBindings` names those that the catalogue does not have.
-/

set_option autoImplicit false

namespace LabelLayout

/-- A field on offer. Its path is its category, a dot and its name. -/
structure DataField where
  category : String
  name : String
  label : String
  sample : String
  deriving DecidableEq, Repr, Inhabited

/-- The path of a field. -/
def DataField.key (field : DataField) : String := field.category ++ "." ++ field.name

namespace Catalogue

def categories : List String := ["location", "product", "pallet", "inventory", "system"]

def fields : List DataField := [
  ⟨"location", "full", "Full Location Code", "WH01-A01-S01-01"⟩,
  ⟨"location", "warehouse", "Warehouse Code", "WH01"⟩,
  ⟨"location", "aisle", "Aisle Code", "A01"⟩,
  ⟨"location", "shelf", "Shelf Code", "S01"⟩,
  ⟨"location", "slot", "Slot Code", "01"⟩,
  ⟨"location", "zone", "Zone", "Storage"⟩,
  ⟨"product", "sku", "Product SKU", "SKU-12345"⟩,
  ⟨"product", "name", "Product Name", "Widget Pro Max"⟩,
  ⟨"product", "barcode", "Product Barcode", "123456789012"⟩,
  ⟨"product", "category", "Product Category", "Electronics"⟩,
  ⟨"pallet", "number", "Pallet Number", "PAL-20240115-001"⟩,
  ⟨"pallet", "status", "Pallet Status", "Stored"⟩,
  ⟨"pallet", "weight", "Pallet Weight", "500 kg"⟩,
  ⟨"inventory", "quantity", "Quantity", "100"⟩,
  ⟨"inventory", "lot", "Lot Number", "LOT-2024-001"⟩,
  ⟨"inventory", "expiry", "Expiry Date", "2025-12-31"⟩,
  ⟨"system", "date", "Current Date", "2024-01-15"⟩,
  ⟨"system", "time", "Current Time", "14:30"⟩,
  ⟨"system", "datetime", "Date & Time", "2024-01-15 14:30"⟩,
  ⟨"system", "user", "Current User", "John Doe"⟩]

/-- The field with a path. -/
def find? (key : String) : Option DataField := fields.find? fun field => field.key == key

/-- The fields of a category in catalogue order. -/
def inCategory (category : String) : List DataField :=
  fields.filter fun field => field.category == category

/-- The user of a sample context that names none. -/
def sampleUser : Datum := .str "John Doe"

end Catalogue

/-- A moment to the minute. -/
structure Moment where
  year : Nat
  month : Nat
  day : Nat
  hour : Nat
  minute : Nat
  deriving DecidableEq, Repr, Inhabited

namespace Moment

def isLeapYear (year : Nat) : Bool :=
  year % 4 == 0 && (year % 100 != 0 || year % 400 == 0)

def daysInMonth (year month : Nat) : Nat :=
  if month = 2 then (if isLeapYear year then 29 else 28)
  else if [4, 6, 9, 11].contains month then 30
  else 31

/-- A part of a moment: an integer of at most 32 bits. A flag counts as 0 or 1. -/
def part : Datum → Except Error Int
  | .bool flag => .ok flag.toNat
  | .num (.int n) =>
    if -0x80000000 ≤ n ∧ n < 0x80000000 then .ok n else .error (.fault .tooLarge)
  | _ => .error .wrongKind

/-- A part within its range. -/
def ranged (low high n : Int) : Except Error Nat :=
  if low ≤ n ∧ n ≤ high then .ok n.toNat else .error .impossibleDate

/-- The moment of its parts, from the year down to the microsecond. Those behind
the day may be left out and are zero. An eighth part is a time zone; there is
none to choose from but null. -/
def ofParts (parts : List Datum) : Except Error Moment := do
  if parts.length < 3 ∨ 8 < parts.length then throw .wrongKind
  let zone := parts.getD 7 .null
  let parts ← (parts.take 7).mapM part
  let year ← ranged 1 9999 (parts.getD 0 0)
  let month ← ranged 1 12 (parts.getD 1 0)
  let day ← ranged 1 (daysInMonth year month) (parts.getD 2 0)
  let hour ← ranged 0 23 (parts.getD 3 0)
  let minute ← ranged 0 59 (parts.getD 4 0)
  let _ ← ranged 0 59 (parts.getD 5 0)
  let _ ← ranged 0 999999 (parts.getD 6 0)
  if zone ≠ .null then throw .wrongKind
  return { year, month, day, hour, minute }

/-- A number of at least two digits. -/
def twoDigits (n : Nat) : String := if n < 10 then "0" ++ toString n else toString n

def dateText (m : Moment) : String :=
  toString m.year ++ "-" ++ twoDigits m.month ++ "-" ++ twoDigits m.day

def timeText (m : Moment) : String := twoDigits m.hour ++ ":" ++ twoDigits m.minute

end Moment

namespace Catalogue

/-- What a field shows in a sample context. -/
def sampleValue (now : Moment) (user : Datum) (field : DataField) : Datum :=
  if field.category == "system" then
    match field.name with
    | "date" => .str now.dateText
    | "time" => .str now.timeText
    | "datetime" => .str (now.dateText ++ " " ++ now.timeText)
    | "user" => user
    | _ => .str field.sample
  else .str field.sample

/-- A context in which every field of the catalogue has a value. -/
def sampleContext (now : Moment) (user : Datum) : Datum :=
  .object (categories.map fun category =>
    (category, .object ((inCategory category).map fun field =>
      (field.name, sampleValue now user field))))

end Catalogue

/-- The paths that a document refers to and the catalogue does not have. -/
def Document.unknownBindings (d : Document Number) : List String :=
  d.usedFields.filter fun path => !(Catalogue.fields.map DataField.key).contains path

end LabelLayout
