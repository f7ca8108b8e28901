import LabelLayout.Text.CodePoint
import LabelLayout.Value

/-!
# `LabelLayout.Json.Reader`: plain data from JSON text

The reader takes strict JSON with three additions: the numbers `NaN`,
`Infinity` and `-Infinity`. A number with a point or an exponent is a double,
any other an integer, of which more than `maxIntegerDigits` are refused. Blank are
space, tab, line feed and carriage return alone. Of two members with one name
the later value stands, at the place of the earlier.

Each function reads a prefix and returns what is left behind it. The nesting of
values is bounded by the length of the text, so that length is fuel enough. Lists
and objects that are nested deeper than `maxDepth` are not read, and a reader says
so as soon as it meets one, whatever the text behind it.
-/

set_option autoImplicit false

namespace LabelLayout.Json

/-- Why a text is not read. -/
inductive Failure where
  /-- It is no JSON. -/
  | malformed
  /-- Its lists and objects are nested too deep. -/
  | tooDeep
  deriving DecidableEq, Repr, Inhabited

/-- A prefix that is there, or a malformed text. -/
def expect {β : Type} : Option β → Except Failure β
  | some b => .ok b
  | none => .error .malformed

def isSpace (c : Char) : Bool := c == ' ' || c == '\t' || c == '\n' || c == '\r'

def skipSpace (cs : List Char) : List Char := cs.dropWhile isSpace

/-- What follows a fixed word. -/
def afterWord? : List Char → List Char → Option (List Char)
  | [], cs => some cs
  | _ :: _, [] => none
  | w :: word, c :: cs => if w = c then afterWord? word cs else none

/-! ## Texts -/

def hexValue? (c : Char) : Option Nat :=
  if '0' ≤ c ∧ c ≤ '9' then some (c.toNat - '0'.toNat)
  else if 'a' ≤ c ∧ c ≤ 'f' then some (c.toNat - 'a'.toNat + 10)
  else if 'A' ≤ c ∧ c ≤ 'F' then some (c.toNat - 'A'.toNat + 10)
  else none

/-- The code of four hexadecimal digits. -/
def fourHex? (a b c d : Char) : Option Nat := do
  let a ← hexValue? a
  let b ← hexValue? b
  let c ← hexValue? c
  let d ← hexValue? d
  return ((a * 16 + b) * 16 + c) * 16 + d

/-- The code that a character stands for behind a backslash. -/
def simpleEscape? : Char → Option Nat
  | '"' => some 0x22
  | '\\' => some 0x5c
  | '/' => some 0x2f
  | 'b' => some 0x08
  | 'f' => some 0x0c
  | 'n' => some 0x0a
  | 'r' => some 0x0d
  | 't' => some 0x09
  | _ => none

/-- What a text between quotes is written with. -/
inductive Glyph where
  /-- A character of the text. -/
  | plain (c : Char)
  /-- The code of a character, or of half of one, behind a backslash. -/
  | escaped (code : Nat)
  deriving DecidableEq, Repr, Inhabited

/-- What a text is written with up to its closing quote. -/
def readGlyphs : List Char → Option (List Glyph × List Char)
  | [] => none
  | '"' :: rest => some ([], rest)
  | '\\' :: 'u' :: a :: b :: c :: d :: rest => do
    let code ← fourHex? a b c d
    let (glyphs, rest) ← readGlyphs rest
    return (.escaped code :: glyphs, rest)
  | '\\' :: e :: rest => do
    let code ← simpleEscape? e
    let (glyphs, rest) ← readGlyphs rest
    return (.escaped code :: glyphs, rest)
  | c :: rest =>
    if c.toNat < 0x20 ∨ c = '\\' then none
    else do
      let (glyphs, rest) ← readGlyphs rest
      return (.plain c :: glyphs, rest)

/-- The text that is written so. Two escapes that are a surrogate pair are one code
point. -/
def textOf : List Glyph → List Char
  | [] => []
  | .plain c :: rest => c :: textOf rest
  | .escaped high :: .escaped low :: rest =>
    if Text.isHighSurrogate high && Text.isLowSurrogate low then
      Text.spell (Text.codeOfPair high low) ++ textOf rest
    else Text.spell high ++ textOf (.escaped low :: rest)
  | .escaped code :: rest => Text.spell code ++ textOf rest

/-- A text behind its opening quote. -/
def readText (cs : List Char) : Option (String × List Char) := do
  let (glyphs, rest) ← readGlyphs cs
  return (String.ofList (textOf glyphs), rest)

/-! ## Numbers -/

/-- The digits at the front of a text, and what follows them. -/
def spanDigits (cs : List Char) : List Char × List Char :=
  (cs.takeWhile Char.isDigit, cs.dropWhile Char.isDigit)

/-- The number that decimal digits denote. -/
def digitsValue (digits : List Char) : Nat :=
  digits.foldl (fun n c => 10 * n + (c.toNat - '0'.toNat)) 0

/-- The integer part of a number: a single zero, or digits that start with
another one. -/
def readWhole : List Char → Option (List Char × List Char)
  | '0' :: rest => some (['0'], rest)
  | cs =>
    match spanDigits cs with
    | ([], _) => none
    | (digits, rest) => some (digits, rest)

/-- The decimal places behind a point, if there are any. -/
def readPlaces : List Char → Option (List Char) × List Char
  | '.' :: rest =>
    match spanDigits rest with
    | ([], _) => (none, '.' :: rest)
    | (digits, after) => (some digits, after)
  | cs => (none, cs)

/-- The sign at the front of an exponent: whether it is negative, and what follows. -/
def readSign : List Char → Bool × List Char
  | '-' :: rest => (true, rest)
  | '+' :: rest => (false, rest)
  | cs => (false, cs)

/-- A signed exponent behind an `e`, if there is one. -/
def readExponent (cs : List Char) : Option Int × List Char :=
  match cs with
  | e :: rest =>
    if e = 'e' ∨ e = 'E' then
      let (negative, digits) := readSign rest
      match spanDigits digits with
      | ([], _) => (none, cs)
      | (digits, after) =>
        (some (if negative then -(digitsValue digits : Int) else digitsValue digits), after)
    else (none, cs)
  | [] => (none, [])

/-- An integer or a decimal without its sign. -/
def readMagnitude (negative : Bool) (cs : List Char) : Option (Number × List Char) := do
  let (whole, rest) ← readWhole cs
  let (places, rest) := readPlaces rest
  let (exponent, rest) := readExponent rest
  if places.isNone && exponent.isNone then
    if whole.length ≤ maxIntegerDigits then
      let n : Int := digitsValue whole
      return (.int (if negative then -n else n), rest)
    else none
  else
    let places := places.getD []
    let decimal : Decimal :=
      ⟨digitsValue (whole ++ places), exponent.getD 0 - places.length⟩
    return (.float (.ofDecimal negative decimal), rest)

/-- A number, `NaN` and the infinities among them. -/
def readNumber (cs : List Char) : Option (Number × List Char) :=
  match cs with
  | 'N' :: _ => do
    let rest ← afterWord? "NaN".toList cs
    return (.float .nan, rest)
  | 'I' :: _ => do
    let rest ← afterWord? "Infinity".toList cs
    return (.float (.infinite false), rest)
  | '-' :: 'I' :: rest => do
    let rest ← afterWord? "Infinity".toList ('I' :: rest)
    return (.float (.infinite true), rest)
  | '-' :: rest => readMagnitude true rest
  | _ => readMagnitude false cs

/-! ## Values -/

/-- Members with the value of a name put at its place, or at the end. -/
def putMember (name : String) (v : Datum) : List (String × Datum) → List (String × Datum)
  | [] => [(name, v)]
  | (other, w) :: rest =>
    if other = name then (name, v) :: rest else (other, w) :: putMember name v rest

/-- Members by name: the later value of a name at the place of the earlier. -/
def mergeMembers (members : List (String × Datum)) : List (String × Datum) :=
  members.foldl (fun merged (name, v) => putMember name v merged) []

/-- How deep lists and objects may be nested. A reader that calls itself uses up a stack, and this
is what a stack of a thousand calls has left for it below its caller, so the number belongs to one
depth of that caller. It limits reading alone. What is done with a value later, such as spelling
it out (`Value.literal`, `Value.display`), is not limited here. -/
def maxDepth : Nat := 990

mutual

/-- A value at the front of a text, in which so many more lists and objects may
be nested. -/
def readValue (room : Nat) : Nat → List Char → Except Failure (Datum × List Char)
  | 0, _ => .error .malformed
  | fuel + 1, cs =>
    match cs with
    | '"' :: rest => do
      let (text, rest) ← expect (readText rest)
      return (.str text, rest)
    | '[' :: rest =>
      if room = 0 then .error .tooDeep
      else match skipSpace rest with
        | ']' :: rest => .ok (.list [], rest)
        | rest => do
          let (items, rest) ← readItems (room - 1) fuel rest
          return (.list items, rest)
    | '\x7b' :: rest =>
      if room = 0 then .error .tooDeep
      else match skipSpace rest with
        | '\x7d' :: rest => .ok (.object [], rest)
        | rest => do
          let (members, rest) ← readMembers (room - 1) fuel rest
          return (.object (mergeMembers members), rest)
    | 'n' :: _ => do
      let rest ← expect (afterWord? "null".toList cs)
      return (.null, rest)
    | 't' :: _ => do
      let rest ← expect (afterWord? "true".toList cs)
      return (.bool true, rest)
    | 'f' :: _ => do
      let rest ← expect (afterWord? "false".toList cs)
      return (.bool false, rest)
    | _ => do
      let (x, rest) ← expect (readNumber cs)
      return (.num x, rest)

/-- The items of a list up to its closing bracket. -/
def readItems (room : Nat) : Nat → List Char → Except Failure (List Datum × List Char)
  | 0, _ => .error .malformed
  | fuel + 1, cs => do
    let (v, rest) ← readValue room fuel cs
    match skipSpace rest with
    | ']' :: rest => return ([v], rest)
    | ',' :: rest => do
      let (items, rest) ← readItems room fuel (skipSpace rest)
      return (v :: items, rest)
    | _ => .error .malformed

/-- The members of an object up to its closing bracket. -/
def readMembers (room : Nat) :
    Nat → List Char → Except Failure (List (String × Datum) × List Char)
  | 0, _ => .error .malformed
  | fuel + 1, cs =>
    match cs with
    | '"' :: rest => do
      let (name, rest) ← expect (readText rest)
      match skipSpace rest with
      | ':' :: rest => do
        let (v, rest) ← readValue room fuel (skipSpace rest)
        match skipSpace rest with
        | '\x7d' :: rest => return ([(name, v)], rest)
        | ',' :: rest => do
          let (members, rest) ← readMembers room fuel (skipSpace rest)
          return ((name, v) :: members, rest)
        | _ => .error .malformed
      | _ => .error .malformed
    | _ => .error .malformed

end

/-- The value of a whole text, blanks around it allowed. -/
def readChars (cs : List Char) : Except Failure Datum := do
  let (v, rest) ← readValue maxDepth (cs.length + 1) (skipSpace cs)
  if (skipSpace rest).isEmpty then return v else throw .malformed

/-- The value of a whole text. -/
def read (text : String) : Except Failure Datum := readChars text.toList

end LabelLayout.Json
