import LabelLayout.Design.Record
import LabelLayout.Json.Encoding
import LabelLayout.Json.Printer
import LabelLayout.Json.Reader

/-!
# `LabelLayout.Design.File`: design files

A design file is the record of a document as indented JSON. Loading rejects a
text that is no JSON and a record that is no document, both by giving nothing.
What is no defect of the file, a fault of arithmetic on its numbers or a list in
the place of a type, stays an error, and so does a nesting too deep to be read.
A document whose arithmetic has led to an integer of too many digits has no file.
-/

set_option autoImplicit false

namespace LabelLayout.Document

/-- The text of a design file. -/
def exported (d : Document Number) : Except Fault String := Json.write .indented d.record

/-- The document of plain data, if it is one. -/
def accept (data : Except Json.Failure Datum) : Except Error (Option (Document Number)) :=
  match data with
  | .error .malformed => .ok none
  | .error .tooDeep => .error .tooDeep
  | .ok v =>
    match ofRecord v with
    | .ok d => .ok (some d)
    | .error e => if e.family = .format then .ok none else .error e

/-- The document of a design file's text. -/
def imported (text : String) : Except Error (Option (Document Number)) :=
  accept (Json.read text)

/-- The document of a design file's bytes. -/
def importedBytes (bytes : List Nat) : Except Error (Option (Document Number)) :=
  accept (Json.expect (Json.decode bytes) >>= Json.readChars)

end LabelLayout.Document
