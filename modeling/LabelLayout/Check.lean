import LabelLayout.Error

/-!
# `LabelLayout.Check`: single fields

A field of a size, of the settings or of an element is checked by its kind: a
number (a flag is none), a text, a text or null, or one of a set of words. The
name in the error is the field's.

`Members` are named values as they come in, the arguments of an edit or the
members of an object.
-/

set_option autoImplicit false

namespace LabelLayout

namespace Check

def number (field : String) : Datum → Except Error Number
  | .num x => .ok x
  | got => .error (.notNumber field got)

def text (field : String) : Datum → Except Error String
  | .str s => .ok s
  | got => .error (.notText field got)

def textOrNull (field : String) : Datum → Except Error (Option String)
  | .null => .ok none
  | .str s => .ok (some s)
  | got => .error (.notText field got)

/-- One of a set of words. -/
def choice (τ : Type) [Choice τ] (field : String) (got : Datum) : Except Error τ :=
  let chosen : Option τ := match got with
    | .str s => Choice.ofName? s
    | _ => none
  match chosen with
  | some c => .ok c
  | none => .error (.notChoice field (Choice.names τ) got)

end Check

/-- A choice as plain data. -/
def Choice.datum {α τ : Type} [Choice τ] (choice : τ) : Value α := .str (Choice.name choice)

/-- An optional text as plain data. -/
def optionalText {α : Type} : Option String → Value α
  | none => .null
  | some text => .str text

/-- Named values. -/
abbrev Members := List (String × Datum)

namespace Members

/-- Refuses names that are not among the allowed ones. -/
def checkNames (allowed : List String) (members : Members) : Except Error Unit :=
  match members.find? fun (name, _) => !allowed.contains name with
  | some (name, _) => .error (.unexpectedArgument name)
  | none => .ok ()

/-- Whether a name is among the members. -/
def has (members : Members) (name : String) : Bool := (members.lookup name).isSome

/-- An argument that must be given. -/
def required (members : Members) (name : String) : Except Error Datum :=
  match members.lookup name with
  | some v => .ok v
  | none => .error (.missingArgument name)

/-- A part that an object has to have. -/
def part (members : Members) (name : String) : Except Error Datum :=
  match members.lookup name with
  | some v => .ok v
  | none => .error (.missingPart name)

/-- The named values that an object has. -/
def ofDatum : Datum → Except Error Members
  | .object members => .ok members
  | _ => .error .wrongKind

end Members

end LabelLayout
