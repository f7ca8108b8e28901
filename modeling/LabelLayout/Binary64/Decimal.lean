import LabelLayout.Binary64

/-!
# `LabelLayout.Binary64.Decimal`: doubles as decimal text

* `Binary64.ofDecimal` reads `digits · 10 ^ exponent` to the nearest double.
* `Decimal.shortest` goes the other way: of the decimals that read back as the
  double it takes one with the fewest digits, of these the nearest, and of two
  equally near ones the one with an even last digit.
* `Binary64.text` lays a decimal out. Where positional notation ends and how an
  exponent looks is a `DecimalLayout`, so a format is one record.
* `Binary64.tenths` writes one decimal place, rounded from the exact value.

The search of `shortest` ends after 17 digits, which identify every double; the
double's own exact decimal stands behind it, so reading back never depends on
that count.
-/

set_option autoImplicit false

namespace LabelLayout

/-- The number `digits · 10 ^ exponent`. -/
structure Decimal where
  digits : Nat
  exponent : Int
  deriving DecidableEq, Repr, Inhabited

/-- How doubles are written. Scientific exponents from `positionalFrom` up to,
but not including, `positionalTo` are written out with a point; the others take
an `e`, a sign and at least `exponentDigits` digits. -/
structure DecimalLayout where
  positionalFrom : Int
  positionalTo : Int
  exponentDigits : Nat
  nan : String
  infinity : String
  deriving DecidableEq, Repr, Inhabited

/-- Numbers in messages: no number is `nan`, an infinity `inf`. -/
def DecimalLayout.message : DecimalLayout := ⟨-4, 16, 2, "nan", "inf"⟩

/-- Numbers in design files. -/
def DecimalLayout.design : DecimalLayout := ⟨-4, 16, 2, "NaN", "Infinity"⟩

namespace Decimal

/-- The decimal as a quotient of units. -/
def quotient (d : Decimal) : Nat × Nat :=
  if 0 ≤ d.exponent then (d.digits * Nat.pow 10 d.exponent.toNat * oneUnits, 1)
  else (d.digits * oneUnits, Nat.pow 10 (-d.exponent).toNat)

/-- The units of the double that the decimal reads as. -/
def units (d : Decimal) : Nat := nearest d.quotient.1 d.quotient.2

/-- The scientific exponent plus one: where the point stands before the digits. -/
def point (d : Decimal) : Int := (Nat.toDigits 10 d.digits).length + d.exponent

/-- The same number without zeros at the end of its digits. -/
def trim (d : Decimal) : Decimal :=
  if h : d.digits ≠ 0 ∧ d.digits % 10 = 0 then
    trim ⟨d.digits / 10, d.exponent + 1⟩
  else d
termination_by d.digits
decreasing_by
  exact Nat.div_lt_self (Nat.pos_of_ne_zero h.1) (by decide)

/-- Counts up from `k` while the next power of ten is at most `num / den`. -/
def raiseDecade (num den : Nat) (k : Int) : Nat → Int
  | 0 => k
  | fuel + 1 =>
    let reached := if 0 ≤ k + 1 then Nat.pow 10 (k + 1).toNat * den ≤ num
      else den ≤ num * Nat.pow 10 (-(k + 1)).toNat
    if reached then raiseDecade num den (k + 1) fuel else k

/-- The largest `k` with `10 ^ k ≤ num / den`. The start lies at most three below,
as a bit is worth 0.30103 decimal places. -/
def decade (num den : Nat) : Int :=
  raiseDecade num den (((num.log2 : Int) - den.log2 - 1) * 30103 / 100000 - 1) 4

/-- The decimal with the given exponent that reads as `units`, if there is one:
the nearer neighbour, and on a tie the even one. -/
def withExponent? (units : Nat) (exponent : Int) : Option Decimal :=
  let num := if 0 ≤ exponent then units else units * Nat.pow 10 (-exponent).toNat
  let den := if 0 ≤ exponent then oneUnits * Nat.pow 10 exponent.toNat else oneUnits
  let low : Decimal := ⟨num / den, exponent⟩
  let high : Decimal := ⟨num / den + 1, exponent⟩
  match decide (low.units = units), decide (high.units = units) with
  | true, true =>
    let twice := 2 * (num % den)
    some (if twice < den ∨ (twice = den ∧ low.digits % 2 = 0) then low else high)
  | true, false => some low
  | false, true => some high
  | false, false => none

/-- The double of `units` written out in full. -/
def exact (units : Nat) : Decimal := ⟨units * Nat.pow 5 1074, -1074⟩

/-- The shortest decimal that reads as `units`. -/
def shortest (units : Nat) : Decimal :=
  let k := decade units oneUnits
  (((List.range 17).findSome? fun (n : Nat) => withExponent? units (k - n)).getD
    (exact units)).trim

/-- The text of a decimal other than zero, without a sign. -/
def text (layout : DecimalLayout) (d : Decimal) : List Char :=
  let digits := Nat.toDigits 10 d.digits
  let scientific := d.point - 1
  if layout.positionalFrom ≤ scientific ∧ scientific < layout.positionalTo then
    if d.point ≤ 0 then
      '0' :: '.' :: (List.replicate (-d.point).toNat '0' ++ digits)
    else if 0 ≤ d.exponent then
      digits ++ List.replicate d.exponent.toNat '0' ++ ['.', '0']
    else
      digits.take d.point.toNat ++ '.' :: digits.drop d.point.toNat
  else
    let places := Nat.toDigits 10 scientific.natAbs
    let mantissa := match digits with
      | first :: second :: rest => first :: '.' :: second :: rest
      | short => short
    mantissa ++ 'e' :: (if scientific < 0 then '-' else '+') ::
      (List.replicate (layout.exponentDigits - places.length) '0' ++ places)

end Decimal

namespace Binary64

/-- A decimal read as a double. Decimals far beyond the range of doubles are
settled by their size alone. -/
def ofDecimal (negative : Bool) (d : Decimal) : Binary64 :=
  if d.digits = 0 then zero negative
  else if 400 < d.point then .infinite negative
  else if d.point < -400 then zero negative
  else ofQuotient negative d.quotient.1 d.quotient.2

/-- The sign in front of a written number. -/
def signText (negative : Bool) (magnitude : List Char) : List Char :=
  if negative then '-' :: magnitude else magnitude

/-- The text of a double: its shortest decimal under the layout. -/
def text (layout : DecimalLayout) : Binary64 → List Char
  | .nan => layout.nan.toList
  | .infinite s => signText s layout.infinity.toList
  | .finite s u _ =>
    signText s (if u = 0 then ['0', '.', '0'] else (Decimal.shortest u).text layout)

/-- The tenths nearest to a count of units, a tie going to the even one. -/
def nearestTenths (units : Nat) : Nat :=
  let below := units * 10 / oneUnits
  let twice := 2 * (units * 10 % oneUnits)
  if twice < oneUnits ∨ (twice = oneUnits ∧ below % 2 = 0) then below else below + 1

/-- The text of a double with one decimal place. -/
def tenths : Binary64 → List Char
  | .nan => DecimalLayout.message.nan.toList
  | .infinite s => signText s DecimalLayout.message.infinity.toList
  | .finite s u _ =>
    let t := nearestTenths u
    signText s (Nat.toDigits 10 (t / 10) ++ '.' :: Nat.toDigits 10 (t % 10))

end Binary64

end LabelLayout
