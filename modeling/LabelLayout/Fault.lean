/-!
# `LabelLayout.Fault`: how arithmetic on a label can fail

Lengths, positions and resolutions are numbers that a design file chooses, so
every step of a computation may meet an operand it is not defined for. A `Fault`
says which of these cases arose. It carries no text: a fault is a fact about
arithmetic, and the messages of this library belong to `LabelLayout.Error`.
-/

set_option autoImplicit false

namespace LabelLayout

/-- The ways in which a single arithmetic step fails. -/
inductive Fault where
  /-- An operation met a value that is not a number, such as a text or a list. -/
  | operand
  /-- An integer, or a quotient of integers, is too large for a floating number. -/
  | tooLarge
  /-- The integer part of a value that is no number (NaN) was asked for. -/
  | notANumber
  /-- The integer part of an infinity was asked for. -/
  | infinite
  /-- A division by zero. -/
  | divisionByZero
  /-- The grid of a snap was zero or negative. -/
  | gridNotPositive
  /-- A digit-like character such as `²` stood where a decimal digit was read. -/
  | notADecimalDigit
  /-- A text with a surrogate that stands alone was to be encoded in bytes. -/
  | notEncodable
  /-- An integer has too many digits to be written. -/
  | tooManyDigits
  /-- A text or a list was to be repeated beyond all memory. -/
  | noMemory
  deriving DecidableEq, Repr, Inhabited

end LabelLayout
