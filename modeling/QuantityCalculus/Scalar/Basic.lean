/-
Module: QuantityCalculus.Scalar.Basic
Layer: Scalar
Purpose: What a type of numbers has to offer to be measured with, and the powers that follow from
  it.
Imports: none
Trusted boundary: none
Main exports: Scalar, Elementary, Scalar.powInt, Scalar.exponent?, Scalar.compare?
Open obligations: none
-/
namespace QuantityCalculus

/-- The numbers that quantities carry and that conversion factors are made of.

Nothing here asks for the laws of a field: the arithmetic of binary floating point is one instance,
exact rational arithmetic another.  The comparisons are those of the numbers, so a value that is
undefined need not be equal to itself. -/
class Scalar (α : Type) extends Zero α, One α, Add α, Sub α, Mul α, Div α, Neg α, BEq α, LT α,
    LE α where
  decidableLT : DecidableLT α
  decidableLE : DecidableLE α
  /-- The absolute value. -/
  abs : α → α
  /-- The number closest to `coefficient * 10 ^ exponent`. -/
  ofDecimal : (coefficient : Nat) → (exponent : Int) → α
  /-- What stands for the result of an operation that has none. -/
  undefined : α
  /-- Whether the number is neither infinite nor undefined. -/
  isFinite : α → Bool
  /-- Whether the number is larger than every finite one. -/
  isInfinity : α → Bool
  /-- The integer that the number is, if it is one. -/
  toInt? : α → Option Int
  /-- A fraction of two 64-bit integers close to a number that is finite and no integer. -/
  approximation? : α → Option Rat

instance (priority := low) scalarDecidableLT {α : Type} [Scalar α] : DecidableLT α :=
  Scalar.decidableLT
instance (priority := low) scalarDecidableLE {α : Type} [Scalar α] : DecidableLE α :=
  Scalar.decidableLE

/-- The functions on numbers that the built-in operators apply. -/
class Elementary (α : Type) where
  pow : α → α → α
  sqrt : α → α
  sin : α → α
  cos : α → α
  tan : α → α
  asin : α → α
  acos : α → α
  atan : α → α
  ln : α → α
  log10 : α → α
  exp : α → α
  /-- The remainder of a division that is never negative. -/
  modulo : α → α → α

/-- The range of 64-bit integers, which bounds the parts of a fraction. -/
def fitsWord (n : Int) : Bool :=
  -9223372036854775808 ≤ n && n ≤ 9223372036854775807

namespace Scalar

variable {α : Type} [Scalar α]

/-- The larger of two numbers. -/
def larger (a b : α) : α := if a < b then b else a

/-- Whether a number is undefined, which shows in that it is not equal to itself. -/
def isUndefined (a : α) : Bool := !(a == a)

/-- The order of two numbers, unless they are not comparable. -/
def compare? (a b : α) : Option Ordering :=
  if a < b then some .lt
  else if b < a then some .gt
  else if a == b then some .eq
  else none

/-- Multiplies `result` by the `n`-th power of `base`, squaring the base once for every binary
digit of `n`.  The first argument bounds the number of digits. -/
def powDigits : Nat → α → α → Nat → α
  | 0, result, _, _ => result
  | fuel + 1, result, base, n =>
      if n = 0 then result
      else powDigits fuel (if n % 2 = 1 then result * base else result) (base * base) (n / 2)

/-- A power with a natural exponent. -/
def powNat (base : α) (n : Nat) : α := powDigits (n.log2 + 1) 1 base n

/-- A power with an integer exponent; a negative one inverts the power of its absolute value. -/
def powInt (base : α) (n : Int) : α :=
  let power := powNat base n.natAbs
  if n < 0 then 1 / power else power

/-- The fraction that a number stands for as an exponent: itself if it is an integer, else a
fraction close to it.  There is none for an integer beyond 64 bits or a number that is not
finite. -/
def exponent? (x : α) : Option Rat :=
  if isFinite x then
    match toInt? x with
    | some n => if fitsWord n then some (n : Rat) else none
    | none => approximation? x
  else none

end Scalar

end QuantityCalculus
