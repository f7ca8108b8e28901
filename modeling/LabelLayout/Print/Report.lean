import LabelLayout.Error

/-!
# `LabelLayout.Print.Report`: errors as a print pipeline reports them

A host that prints wants printing errors only. An error of another family is
reported as a failed job, or as a bad printer configuration when it is a bad value
or a missing key, and the error it came from is kept as its cause. A printing
error is reported as it is.
-/

set_option autoImplicit false

namespace LabelLayout.Print

/-- An error with the arguments it was raised with. -/
structure Raised where
  family : Family
  arguments : List Datum
  deriving DecidableEq, Repr, Inhabited

/-- The text of an error: nothing, its argument, or all of them in brackets. A
missing key shows its literal. -/
def Raised.text (e : Raised) : String :=
  match e.arguments with
  | [] => ""
  | [v] => if e.family = .key then v.literal else v.display
  | arguments => Value.literalTuple arguments

/-- A printing error, with the family of the error behind it if there is one. -/
structure Report where
  family : Family
  text : String
  cause : Option Family
  deriving DecidableEq, Repr, Inhabited

def isPrinting (family : Family) : Bool :=
  [Family.printing, .resolution, .printer, .printJob].contains family

def isDesign (family : Family) : Bool :=
  [Family.design, .gridSize, .format, .barcodeData].contains family

/-- The printing error that an error is reported as. -/
def report (e : Raised) : Report :=
  if isPrinting e.family then ⟨e.family, e.text, none⟩
  else if e.family = .barcodeData then
    ⟨.printJob, "Barcode data rejected: " ++ e.text, some e.family⟩
  else if isDesign e.family then ⟨.printJob, e.text, some e.family⟩
  else if e.family = .value ∨ e.family = .key then ⟨.printer, e.text, some e.family⟩
  else ⟨.printJob, e.text, some e.family⟩

end LabelLayout.Print
