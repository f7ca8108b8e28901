import LabelLayout.Text.Quoted
import LabelLayout.Value

/-!
# `LabelLayout.Value.Literal`: values in messages and on labels

`literal` shows a value so that its kind can be told: texts are quoted, and null
and the flags are the words `None`, `True` and `False`. `display` shows a text as
it is and everything else as its literal.
-/

set_option autoImplicit false

namespace LabelLayout.Value

mutual

def literalChars : Datum → List Char
  | .null => "None".toList
  | .bool true => "True".toList
  | .bool false => "False".toList
  | .num x => x.text .message
  | .str text => Text.quoted text.toList
  | .list items => '[' :: literalItems items ++ [']']
  | .object members => '\x7b' :: literalMembers members ++ ['\x7d']

def literalItems : List Datum → List Char
  | [] => []
  | [v] => literalChars v
  | v :: w :: rest => literalChars v ++ ',' :: ' ' :: literalItems (w :: rest)

def literalMembers : List (String × Datum) → List Char
  | [] => []
  | [(name, v)] => Text.quoted name.toList ++ ':' :: ' ' :: literalChars v
  | (name, v) :: w :: rest =>
    Text.quoted name.toList ++ ':' :: ' ' :: literalChars v ++
      ',' :: ' ' :: literalMembers (w :: rest)

end

/-- A value as it stands in a message. -/
def literal (v : Datum) : String := String.ofList (literalChars v)

/-- A value as plain text. -/
def display : Datum → String
  | .str text => text
  | v => literal v

/-- Several values in round brackets. -/
def literalTuple (items : List Datum) : String :=
  String.ofList ('(' :: literalItems items ++ [')'])

end LabelLayout.Value
