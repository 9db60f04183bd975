/-
Module: QuantityCalculus.Proofs.Scalar.Equality
Layer: Proofs
Purpose: Numbers whose equality is kept by products.  It need not be reflexive, and it need not tell
  all numbers apart: an undefined number does not equal itself, and the two zeros of binary floating
  point are equal.
Imports: Mathlib, QuantityCalculus.Scalar.Double, QuantityCalculus.Scalar.Exact
Trusted boundary: none
Main exports: EqualProducts, Binary64.zero_mul_or, Binary64.mul_beq
Open obligations: none
-/
import Mathlib
import QuantityCalculus.Scalar.Double
import QuantityCalculus.Scalar.Exact

namespace QuantityCalculus

/-- Numbers that can be replaced by equal ones on the left of a product. -/
class EqualProducts (α : Type) [Scalar α] : Prop extends PartialEquivBEq α where
  mul_beq {x y z w : α} : (x == y) = true → (y * z == w) = true → (x * z == w) = true

namespace Binary64

open Float.Model

/-- It does not matter for a product whether a zero is negative: with both zeros it is undefined, or
with both it is a zero. -/
theorem zero_mul_or (z : Float) :
    ((0 : Float) * z = Float.nan ∧ (-0 : Float) * z = Float.nan)
      ∨ ((0 : Float) * z == 0) = true ∧ ((-0 : Float) * z == 0) = true := by
  have unpacked (x : Float) : x * z
      = .ofModel (.pack (.mul .binary64 x.toModel.unpack z.toModel.unpack)) := rfl
  have positive : (0 : Float).toModel.unpack = .zero .positive := rfl
  have negative : (-0 : Float).toModel.unpack = .zero .negative := rfl
  have signed (sign : UnpackedFloat.Sign) : (Float.ofModel (.pack (.zero sign)) == 0) = true := by
    cases sign <;> decide
  rw [unpacked, unpacked, positive, negative]
  cases z.toModel.unpack with
  | notANumber | infinity => exact .inl ⟨rfl, rfl⟩
  | zero | finite => exact .inr ⟨signed _, signed _⟩

/-- Numbers that are equal may replace each other in a product. -/
theorem mul_beq {x y z w : Float} (same : (x == y) = true) (product : (y * z == w) = true) :
    (x * z == w) = true := by
  obtain ⟨-, -, equal | ⟨rfl, rfl⟩ | ⟨rfl, rfl⟩⟩ := Float.beq_iff_ne_nan_and_eq.mp same
  · rwa [equal]
  · rcases zero_mul_or z with ⟨-, undefined⟩ | ⟨positive, negative⟩
    · simp [undefined] at product
    · exact BEq.trans positive (BEq.trans (BEq.symm negative) product)
  · rcases zero_mul_or z with ⟨undefined, -⟩ | ⟨positive, negative⟩
    · simp [undefined] at product
    · exact BEq.trans negative (BEq.trans (BEq.symm positive) product)

end Binary64

instance : EqualProducts Float where
  symm same := BEq.symm (α := Float) same
  trans first second := BEq.trans (α := Float) first second
  mul_beq := Binary64.mul_beq

instance : EqualProducts Rat where
  symm same := BEq.symm (α := Rat) same
  trans first second := BEq.trans (α := Rat) first second
  mul_beq same product := by
    obtain rfl := eq_of_beq (α := Rat) same
    exact product

end QuantityCalculus
