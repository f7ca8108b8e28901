import LabelLayout.Scalar
import Mathlib.Algebra.Order.Floor.Ring
import Mathlib.Data.Rat.Floor

/-!
# `LabelLayout.Proofs.Scalar`: arithmetic over exact rationals

What geometry, units and the print compiler compute with, read over the rationals. Every
operation is the one of arithmetic, no step rounds, and only a division by zero fails.
-/

set_option autoImplicit false

namespace LabelLayout.Scalar

variable {a b : Rat}

@[simp]
theorem ofInt_rat (n : Int) : (ofInt n : Rat) = n := rfl

@[simp]
theorem constant_rat (num : Int) (den : Nat) : (constant num den : Rat) = num / den :=
  Rat.mkRat_eq_div num den

@[simp]
theorem add_rat : add a b = .ok (a + b) := rfl

@[simp]
theorem sub_rat : sub a b = .ok (a - b) := rfl

@[simp]
theorem mul_rat : mul a b = .ok (a * b) := rfl

@[simp]
theorem div_rat (h : b ≠ 0) : div a b = .ok (a / b) := if_neg h

@[simp]
theorem floor_rat : floor a = .ok ⌊a⌋ := rfl

@[simp]
theorem lt_rat : lt a b = decide (a < b) := rfl

@[simp]
theorem min_rat : Scalar.min a b = a ⊓ b := by
  rcases lt_or_ge b a with h | h
  · simp [Scalar.min, h, h.le]
  · simp [Scalar.min, h]

@[simp]
theorem eq_rat : eq a b = decide (a = b) := rfl

end LabelLayout.Scalar
