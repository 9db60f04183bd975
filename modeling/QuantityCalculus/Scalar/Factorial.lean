/-
Module: QuantityCalculus.Scalar.Factorial
Layer: Scalar
Purpose: The factorial on a type of numbers.
Imports: QuantityCalculus.Scalar.Basic
Trusted boundary: none
Main exports: Scalar.factorial
Open obligations: none
-/
import QuantityCalculus.Scalar.Basic

namespace QuantityCalculus.Scalar

variable {α : Type} [Scalar α]

/-- Whether another factor is due: the factor is at least two and the product still finite. -/
def factorDue (product factor : α) : Bool :=
  decide ((1 + 1 : α) ≤ factor) && !isInfinity product

/-- Multiplies `product` by `factor`, `factor - 1` and so on, for as long as factors are due and at
most for the given number of rounds. -/
def multiplyDown : Nat → α → α → α
  | 0, product, _ => product
  | rounds + 1, product, factor =>
      if factorDue product factor then multiplyDown rounds (product * factor) (factor - 1)
      else product

/-- Every round at least doubles the product, and `2 ^ 1024` exceeds every finite
double-precision number, so no factorial takes more rounds. -/
def maxFactorialRounds : Nat := 1024

/-- The factorial of an integer that is not negative.  All other numbers have none; a result too
large to be represented is infinite. -/
def factorial (x : α) : α :=
  if x < 0 then undefined
  else if (toInt? x).isNone then undefined
  else multiplyDown maxFactorialRounds 1 x

end QuantityCalculus.Scalar
