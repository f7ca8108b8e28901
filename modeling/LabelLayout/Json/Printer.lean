import LabelLayout.Text.Quoted
import LabelLayout.Value

/-!
# `LabelLayout.Json.Printer`: plain data as JSON text

Texts keep every character except the quote, the backslash and the controls
below U+0020, which are escaped. Members and items follow in their order. Where
lines break is the choice of a `Json.Layout`: `indented` is the layout of design
files, `compact` puts a value on one line. An integer of more than
`maxIntegerDigits` digits is not written.
-/

set_option autoImplicit false

namespace LabelLayout.Json

/-- The blank text in front of an item, by its depth. -/
structure Layout where
  lineBreak : Nat → List Char

/-- A line per item, two blanks per level. -/
def Layout.indented : Layout := ⟨fun depth => '\n' :: List.replicate (2 * depth) ' '⟩

/-- No line breaks. -/
def Layout.compact : Layout := ⟨fun _ => []⟩

/-- A character inside a JSON text. -/
def escapeChar (c : Char) : List Char :=
  if c = '"' then ['\\', '"']
  else if c = '\\' then ['\\', '\\']
  else if c = '\n' then ['\\', 'n']
  else if c = '\r' then ['\\', 'r']
  else if c = '\t' then ['\\', 't']
  else if c = '\x08' then ['\\', 'b']
  else if c = '\x0c' then ['\\', 'f']
  else if c.toNat < 0x20 then '\\' :: 'u' :: Text.hex 4 c.toNat
  else [c]

/-- A text between JSON quotes. -/
def printText (text : List Char) : List Char :=
  '"' :: text.flatMap escapeChar ++ ['"']

mutual

/-- A value at a depth of nesting. -/
def printAt (layout : Layout) (depth : Nat) : Datum → List Char
  | .null => "null".toList
  | .bool true => "true".toList
  | .bool false => "false".toList
  | .num x => x.text .design
  | .str text => printText text.toList
  | .list [] => ['[', ']']
  | .list (v :: rest) =>
    '[' :: layout.lineBreak (depth + 1) ++ printAt layout (depth + 1) v ++
      printItems layout (depth + 1) rest ++ layout.lineBreak depth ++ [']']
  | .object [] => ['\x7b', '\x7d']
  | .object ((name, v) :: rest) =>
    '\x7b' :: layout.lineBreak (depth + 1) ++ printText name.toList ++ ':' :: ' ' ::
      printAt layout (depth + 1) v ++ printMembers layout (depth + 1) rest ++
      layout.lineBreak depth ++ ['\x7d']

/-- The items after the first, each behind its comma. -/
def printItems (layout : Layout) (depth : Nat) : List Datum → List Char
  | [] => []
  | v :: rest =>
    ',' :: layout.lineBreak depth ++ printAt layout depth v ++ printItems layout depth rest

/-- The members after the first, each behind its comma. -/
def printMembers (layout : Layout) (depth : Nat) : List (String × Datum) → List Char
  | [] => []
  | (name, v) :: rest =>
    ',' :: layout.lineBreak depth ++ printText name.toList ++ ':' :: ' ' ::
      printAt layout depth v ++ printMembers layout depth rest

end

/-- A value as a JSON text. -/
def print (layout : Layout) (v : Datum) : String := String.ofList (printAt layout 0 v)

mutual

/-- Whether every number in a value has few enough digits to be written. -/
def isWritable : Datum → Bool
  | .num x => x.isWritable
  | .list items => areWritable items
  | .object members => areMembersWritable members
  | _ => true

def areWritable : List Datum → Bool
  | [] => true
  | v :: rest => isWritable v && areWritable rest

def areMembersWritable : List (String × Datum) → Bool
  | [] => true
  | (_, v) :: rest => isWritable v && areMembersWritable rest

end

/-- A value as a JSON text, if every number in it can be written. -/
def write (layout : Layout) (v : Datum) : Except Fault String :=
  if isWritable v then .ok (print layout v) else .error .tooManyDigits

end LabelLayout.Json
