import LabelLayout.Text.Blank
import LabelLayout.Value.Literal

/-!
# `LabelLayout.Binding.Path`: values of a data context

A data context is an object of objects. A path names a way down, its keys
separated by dots and blanks at its ends not counting. A path resolves to a value
when every step is there; a null at any step counts as missing.

`printed` is how a value shows on a label: flags in lower case, whole doubles
without a point. `scannable` keeps only its ASCII letters and digits.
-/

set_option autoImplicit false

namespace LabelLayout.Binding

/-- The pieces of a text between dots. -/
def splitDots : List Char → List (List Char)
  | [] => [[]]
  | c :: rest =>
    if c = '.' then [] :: splitDots rest
    else match splitDots rest with
      | [] => [[c]]
      | piece :: pieces => (c :: piece) :: pieces

/-- The keys of a path. -/
def keysOf (path : List Char) : List String := (splitDots (Text.trim path)).map String.ofList

/-- The value at the end of a way down. -/
def follow (v : Datum) : List String → Option Datum
  | [] => some v
  | key :: keys =>
    match v.member? key with
    | none | some .null => none
    | some next => follow next keys

/-- The value of a path in a context. -/
def resolve (context : Datum) (path : String) : Option Datum :=
  follow context (keysOf path.toList)

/-- A value as it shows on a label. -/
def printed : Datum → String
  | .bool true => "true"
  | .bool false => "false"
  | .num (.float x) =>
    match x.toInt? with
    | some n => Value.display (.num (.int n))
    | none => Value.display (.num (.float x))
  | v => v.display

/-- Whether a character is safe in every scan code. -/
def isScannable (c : Char) : Bool := c.isAlpha || c.isDigit

/-- The ASCII letters and digits of a printed value. -/
def scannable (v : Datum) : String := String.ofList ((printed v).toList.filter isScannable)

end LabelLayout.Binding
