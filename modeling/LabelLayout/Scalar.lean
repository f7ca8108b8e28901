import LabelLayout.Number

/-!
# `LabelLayout.Scalar`: the arithmetic that geometry needs

Everything this library computes on a label uses few operations: the four of
arithmetic, magnitude, integer part and comparison. `Scalar` collects them, and
geometry, unit conversion and the print compiler are written over it. They run
on `Number`, the numbers of design files, and they can be read over exact
rationals, where no step rounds and only a division by zero fails.
-/

set_option autoImplicit false

namespace LabelLayout

/-- Numbers to lay a label out with. `ofInt` and `constant` are exact or
correctly rounded; the partial operations say why they fail. Comparisons are
false when a side is no number. -/
class Scalar (α : Type) where
  ofInt : Int → α
  constant : Int → Nat → α
  add : α → α → Except Fault α
  sub : α → α → Except Fault α
  mul : α → α → Except Fault α
  div : α → α → Except Fault α
  abs : α → α
  floor : α → Except Fault Int
  lt : α → α → Bool
  le : α → α → Bool
  eq : α → α → Bool

instance : Scalar Number where
  ofInt := .int
  constant := .fraction
  add := Number.add
  sub := Number.sub
  mul := Number.mul
  div := Number.div
  abs := Number.abs
  floor := Number.floor
  lt := Number.lt
  le := Number.le
  eq := Number.eq

instance : Scalar Rat where
  ofInt n := n
  constant num den := mkRat num den
  add a b := .ok (a + b)
  sub a b := .ok (a - b)
  mul a b := .ok (a * b)
  div a b := if b = 0 then .error .divisionByZero else .ok (a / b)
  abs a := if a < 0 then -a else a
  floor a := .ok a.floor
  lt a b := decide (a < b)
  le a b := decide (a ≤ b)
  eq a b := decide (a = b)

namespace Scalar

variable {α : Type} [Scalar α]

/-- The first of two values that is not beaten by a smaller one. -/
def min (a b : α) : α := if lt b a then b else a

/-- The first of two values that is not beaten by a larger one. -/
def max (a b : α) : α := if lt a b then b else a

/-- The smallest of a first value and the ones after it. -/
def minimum (first : α) (rest : List α) : α := rest.foldl min first

/-- The largest of a first value and the ones after it. -/
def maximum (first : α) (rest : List α) : α := rest.foldl max first

/-- The sum from left to right, starting at the integer zero. -/
def sum (values : List α) : Except Fault α := values.foldlM add (ofInt 0)

end Scalar

end LabelLayout
