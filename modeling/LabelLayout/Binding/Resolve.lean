import LabelLayout.Binding.Path
import LabelLayout.Binding.Token
import LabelLayout.Document
import LabelLayout.Text.CodePoint

/-!
# `LabelLayout.Binding.Resolve`: elements filled in from a context

A text that is bound to a field shows the field's value, any other text has its
tokens replaced. A bar code or a QR code takes the scannable part of the value of
its field, or of the path of a value that is a single token. What does not
resolve stays as it stands, tokens with their braces, so that a broken binding
shows on the label.

`usedFields` is the set of paths that a document refers to, in the order of
their code points.
-/

set_option autoImplicit false

namespace LabelLayout

namespace Binding

/-- A piece of a text, a token being replaced by the value of its path. -/
def fillPiece (context : Datum) (piece : Piece) : List Char :=
  match piece with
  | .char c => [c]
  | .token path =>
    match resolve context (String.ofList path) with
    | some v => (printed v).toList
    | none => piece.text

/-- A text with its tokens replaced. -/
def fill (context : Datum) (text : String) : String :=
  String.ofList ((scan text.toList).flatMap (fillPiece context))

/-- The text of a token. -/
def tokenOf (path : String) : String := String.ofList (Piece.text (.token path.toList))

/-- The field of an element that is switched to one. An empty name is none. -/
def boundField? (isVariable : Datum) (dataField : Option String) : Option String :=
  match dataField with
  | some field => if isVariable.truthy && !field.isEmpty then some field else none
  | none => none

/-- The path of a value that is a single token, without blanks at its ends. -/
def tokenPath? (value : String) : Option String :=
  (soleToken? (Text.trim value.toList)).map fun path => String.ofList (Text.trim path)

/-- The path that a scan code is bound to: its field, or its value's token. -/
def codePath? (isVariable : Datum) (dataField : Option String) (value : String) :
    Option String :=
  (boundField? isVariable dataField).or (tokenPath? value)

/-- The value of a scan code in a context. -/
def fillCode (context : Datum) (path : Option String) (value : String) : String :=
  match path.bind (resolve context) with
  | some v => scannable v
  | none => value

/-- A body filled in from a context. -/
def fillBody (context : Datum) : Body Number → Body Number
  | .text t =>
    let source := match boundField? t.isVariable t.dataField with
      | some field => tokenOf field
      | none => t.content
    .text { t with content := fill context source }
  | .barcode b =>
    let path := codePath? b.isVariable b.dataField b.value
    .barcode { b with value := fillCode context path b.value }
  | .qrcode q =>
    let path := codePath? q.isVariable q.dataField q.value
    .qrcode { q with value := fillCode context path q.value }
  | body => body

/-- The paths that a body refers to. -/
def bodyPaths : Body Number → List String
  | .text t =>
    (paths t.content.toList).map (fun path => String.ofList (Text.trim path)) ++
      (boundField? t.isVariable t.dataField).toList
  | .barcode b => ((codePath? b.isVariable b.dataField b.value).filter (· ≠ "")).toList
  | .qrcode q => ((codePath? q.isVariable q.dataField q.value).filter (· ≠ "")).toList
  | _ => []

/-- Whether a name comes before another, by their code points. -/
def precedes (name other : String) : Bool :=
  Text.codePoints name.toList < Text.codePoints other.toList

/-- A name put into a list of names in rising order, unless it is there. -/
def insertName (name : String) : List String → List String
  | [] => [name]
  | other :: rest =>
    if name = other then other :: rest
    else if precedes name other then name :: other :: rest
    else other :: insertName name rest

end Binding

/-- An element filled in from a context. -/
def Element.resolve (context : Datum) (e : Element Number) : Element Number :=
  { e with body := Binding.fillBody context e.body }

namespace Document

/-- A document filled in from a context. -/
def resolve (context : Datum) (d : Document Number) : Document Number :=
  { d with elements := d.elements.map (Element.resolve context) }

/-- The paths that a document refers to, each once and in rising order. -/
def usedFields (d : Document Number) : List String :=
  (d.elements.flatMap fun e => Binding.bodyPaths e.body).foldr Binding.insertName []

/-- The paths that a document refers to and a context does not have. -/
def unresolvedFields (d : Document Number) (context : Datum) : List String :=
  d.usedFields.filter fun path => (Binding.resolve context path).isNone

end Document

end LabelLayout
