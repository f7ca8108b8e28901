import LabelLayout.Barcode.Refusal
import LabelLayout.Fault
import LabelLayout.Style
import LabelLayout.Text.Blank
import LabelLayout.Text.CodePoint
import LabelLayout.Text.Digit
import LabelLayout.Text.Upper

/-!
# `LabelLayout.Barcode`: values of one-dimensional codes

`normalize` answers whether a symbology can encode a value, and gives the value
in the form that is printed: trimmed, upper-cased for Code 39, and with the check
digit appended where the retail codes leave it off.

A retail code weighs its digits alternately by 1 and 3; the check digit brings
the weighted sum to a multiple of ten. EAN-13 starts with weight 1, UPC-A with
weight 3.

The digit test admits digit-like characters such as `²`, which have no decimal
value; reading one as a digit is a fault and no refusal.
-/

set_option autoImplicit false

namespace LabelLayout.Barcode

/-- The decimal values of the digits in a text, other characters being left
out. -/
def digitValues : List Char → Except Fault (List Nat)
  | [] => .ok []
  | c :: rest =>
    if Text.isDigit c then
      match Text.decimalValue? c with
      | none => .error .notADecimalDigit
      | some value => (digitValues rest).map (value :: ·)
    else digitValues rest

/-- The sum of digits weighed by `odd`, `even`, `odd` and so on. -/
def weightedSum (odd even : Nat) : List Nat → Nat
  | [] => 0
  | d :: rest => odd * d + weightedSum even odd rest

/-- The digit that brings a sum to a multiple of ten. -/
def checkDigit (sum : Nat) : Char := Nat.digitChar ((10 - sum % 10) % 10)

/-- A retail code: how many digits it has without its check digit, and the
weights of its odd and even places. -/
structure Retail where
  length : Nat
  odd : Nat
  even : Nat
  deriving DecidableEq, Repr, Inhabited

def ean13 : Retail := ⟨12, 1, 3⟩

def upcA : Retail := ⟨11, 3, 1⟩

/-- The check digit of digits: none when there are too few. -/
def Retail.checkDigitOf? (code : Retail) (digits : List Nat) : Option Char :=
  if digits.length = code.length then
    some (checkDigit (weightedSum code.odd code.even digits))
  else none

/-- The check digit of the digits among the first code points of a text: none when
they are too few. -/
def Retail.checkDigit? (code : Retail) (text : List Char) : Except Fault (Option Char) := do
  return code.checkDigitOf? (← digitValues (Text.takePoints code.length text))

/-- The refusals of a retail code. -/
structure Retail.Rules where
  empty : Refusal
  notDigits : Refusal
  wrongLength : Refusal
  wrongCheckDigit : Char → Char → Refusal

def ean13Rules : Retail.Rules := ⟨.ean13Empty, .ean13NotDigits, .ean13Length, .ean13CheckDigit⟩

def upcARules : Retail.Rules := ⟨.upcEmpty, .upcNotDigits, .upcLength, .upcCheckDigit⟩

/-- A retail code completed by its check digit, or checked against it. -/
def Retail.normalize (code : Retail) (rules : Retail.Rules) (text : List Char) :
    Except Failure (List Char) :=
  let text := Text.trim text
  if text.isEmpty then .error (.refused rules.empty)
  else if !text.all Text.isDigit then .error (.refused rules.notDigits)
  else if text.length ≠ code.length ∧ text.length ≠ code.length + 1 then
    .error (.refused rules.wrongLength)
  else match code.checkDigit? (text.take code.length) with
    | .error f => .error (.fault f)
    | .ok none => .error (.refused rules.wrongLength)
    | .ok (some expected) =>
      match text.drop code.length with
      | [] => .ok (text ++ [expected])
      | got :: _ =>
        if got = expected then .ok text
        else .error (.refused (rules.wrongCheckDigit got expected))

/-- Whether Code 128 takes a character: it takes printable ASCII. -/
def isCode128 (c : Char) : Bool := 32 ≤ c.toNat && c.toNat ≤ 126

def normalizeCode128 (text : List Char) : Except Failure (List Char) :=
  if text.isEmpty then .error (.refused .code128Empty)
  else match text.dropWhile isCode128 with
    | [] => .ok text
    | rest => .error (.refused (.code128Character (Text.firstPoint rest)))

/-- The characters of Code 39. -/
def code39Alphabet : List Char := "0123456789ABCDEFGHIJKLMNOPQRSTUVWXYZ -.$/+%".toList

/-- Whether Code 39 takes a character. -/
def isCode39 (c : Char) : Bool := code39Alphabet.contains c

/-- Code 39 takes its alphabet, whatever the case of the letters. -/
def normalizeCode39 (text : List Char) : Except Failure (List Char) :=
  let text := Text.upper (Text.trim text)
  if text.isEmpty then .error (.refused .code39Empty)
  else if text.contains '*' then .error (.refused .code39Asterisk)
  else match text.dropWhile isCode39 with
    | [] => .ok text
    | rest => .error (.refused (.code39Character (Text.firstPoint rest)))

/-- The printed form of a value, if the symbology can encode it. -/
def normalizeChars : Symbology → List Char → Except Failure (List Char)
  | .code128 => normalizeCode128
  | .code39 => normalizeCode39
  | .ean13 => ean13.normalize ean13Rules
  | .upc => upcA.normalize upcARules

def normalize (symbology : Symbology) (value : String) : Except Failure String :=
  (normalizeChars symbology value.toList).map String.ofList

/-- The symbology that a name means: blanks around it and case do not count. -/
def symbologyOf? (name : String) : Option Symbology :=
  Choice.ofName? (String.ofList (Text.upper (Text.trim name.toList)))

/-- The printed form of a value under a symbology given by name. -/
def normalizeAs (name value : String) : Except Failure String :=
  match symbologyOf? name with
  | none => .error (.refused (.unsupportedSymbology (.str name)))
  | some symbology => normalize symbology value

end LabelLayout.Barcode
