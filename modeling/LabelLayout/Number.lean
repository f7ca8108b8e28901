import LabelLayout.Binary64.Decimal

/-!
# `LabelLayout.Number`: the numbers of a design

A number of a design file is an integer of any size or a double, and stays what
it is: `5` and `5.0` are different values that compare as equal. Sums,
differences and products of integers are integers; a quotient is always a
double, rounded once; and an integer that meets a double is converted first,
which fails when it is too large. Comparison never converts.
-/

set_option autoImplicit false

namespace LabelLayout

/-- An unbounded integer or a double. -/
inductive Number where
  | int (n : Int)
  | float (x : Binary64)
  deriving DecidableEq, Repr

/-- The most digits that an integer may have where it is read or written. -/
def maxIntegerDigits : Nat := 4300

namespace Number

instance : Inhabited Number := ⟨.int 0⟩

/-- Whether a number has few enough digits to be written. -/
def isWritable : Number → Bool
  | .int n => n.natAbs < Nat.pow 10 maxIntegerDigits
  | .float _ => true

/-- The double nearest to a fraction, as a constant of a formula. -/
def fraction (num : Int) (den : Nat) : Number := .float (.ofFraction num den)

/-- The number as a double. -/
def toBinary64 : Number → Except Fault Binary64
  | .int n => Binary64.ofInt n
  | .float x => .ok x

/-- An operation on doubles, with both operands converted in order. -/
def onFloats (op : Binary64 → Binary64 → Except Fault Binary64) (a b : Number) :
    Except Fault Number := do
  let x ← a.toBinary64
  let y ← b.toBinary64
  return .float (← op x y)

def add : Number → Number → Except Fault Number
  | .int m, .int n => .ok (.int (m + n))
  | a, b => onFloats (fun x y => .ok (x.add y)) a b

def sub : Number → Number → Except Fault Number
  | .int m, .int n => .ok (.int (m - n))
  | a, b => onFloats (fun x y => .ok (x.sub y)) a b

def mul : Number → Number → Except Fault Number
  | .int m, .int n => .ok (.int (m * n))
  | a, b => onFloats (fun x y => .ok (x.mul y)) a b

/-- The quotient of two integers as a double, rounded once. Its sign is the
product of the signs as written, so `0 / -1` is negative zero. -/
def divInt (m n : Int) : Except Fault Number :=
  if n = 0 then .error .divisionByZero
  else
    (Binary64.ofQuotient (decide (m < 0) != decide (n < 0)) (m.natAbs * oneUnits)
      n.natAbs).checked.map .float

def div : Number → Number → Except Fault Number
  | .int m, .int n => divInt m n
  | a, b => onFloats Binary64.div a b

def abs : Number → Number
  | .int n => .int n.natAbs
  | .float x => .float x.abs

/-- The largest integer that is not above the number. -/
def floor : Number → Except Fault Int
  | .int n => .ok n
  | .float x => x.floor

/-- The order of two numbers by their exact values, `none` when one is no
number. -/
def compare? : Number → Number → Option Ordering
  | .int m, .int n => some (compare m n)
  | .int m, .float y => (y.compareUnits (m * oneUnits)).map Ordering.swap
  | .float x, .int n => x.compareUnits (n * oneUnits)
  | .float x, .float y => x.compare? y

def lt (a b : Number) : Bool := a.compare? b == some .lt

def le (a b : Number) : Bool := a.compare? b == some .lt || a.compare? b == some .eq

def eq (a b : Number) : Bool := a.compare? b == some .eq

/-- The text of a number under a layout: an integer is its decimal digits. -/
def text (layout : DecimalLayout) : Number → List Char
  | .int n => Binary64.signText (decide (n < 0)) (Nat.toDigits 10 n.natAbs)
  | .float x => x.text layout

end Number

end LabelLayout
