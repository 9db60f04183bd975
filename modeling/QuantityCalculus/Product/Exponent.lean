/-
Module: QuantityCalculus.Product.Exponent
Layer: Product
Purpose: The exponents of factors: integers of 32 bits, with arithmetic that stops at the bounds and
  arithmetic that refuses to leave them.
Imports: QuantityCalculus.Scalar.Basic
Trusted boundary: none
Main exports: Exponent, Exponent.ofInt?, Exponent.clamp, Exponent.add, Exponent.mul,
  Exponent.add?, Exponent.neg?, Exponent.scaled, PowerError, Exponent.superscript
Open obligations: none
-/
import QuantityCalculus.Scalar.Basic

namespace QuantityCalculus

/-- An integer exponent within the range of 32 bits. -/
structure Exponent where
  val : Int
  lower : -2147483648 ≤ val
  upper : val ≤ 2147483647
deriving DecidableEq

namespace Exponent

instance : Repr Exponent := ⟨fun e precedence => reprPrec e.val precedence⟩

def minimum : Exponent := ⟨-2147483648, by decide, by decide⟩
def maximum : Exponent := ⟨2147483647, by decide, by decide⟩
def zero : Exponent := ⟨0, by decide, by decide⟩
def one : Exponent := ⟨1, by decide, by decide⟩
def minusOne : Exponent := ⟨-1, by decide, by decide⟩

instance : Inhabited Exponent := ⟨zero⟩

/-- The exponent with a given value, if the value is in range. -/
def ofInt? (n : Int) : Option Exponent :=
  if h : -2147483648 ≤ n ∧ n ≤ 2147483647 then some ⟨n, h.1, h.2⟩ else none

/-- The exponent closest to a given value. -/
def clamp (n : Int) : Exponent :=
  if low : n < -2147483648 then minimum
  else if high : 2147483647 < n then maximum
  else ⟨n, by omega, by omega⟩

/-- The sum, or the bound that it passes. -/
def add (a b : Exponent) : Exponent := clamp (a.val + b.val)

/-- The product, or the bound that it passes. -/
def mul (a b : Exponent) : Exponent := clamp (a.val * b.val)

/-- The absolute value, or the upper bound if it is passed. -/
def absolute (a : Exponent) : Exponent := clamp a.val.natAbs

/-- The sum, if it is in range. -/
def add? (a b : Exponent) : Option Exponent := ofInt? (a.val + b.val)

/-- The exponent with the other sign, if it is in range. -/
def neg? (a : Exponent) : Option Exponent := ofInt? (-a.val)

theorem ext_val {a b : Exponent} (h : a.val = b.val) : a = b := by
  cases a
  cases b
  simp_all

theorem ofInt?_eq_some_iff {n : Int} {e : Exponent} : ofInt? n = some e ↔ e.val = n := by
  constructor
  · intro h
    simp only [ofInt?] at h
    split at h
    · cases h
      rfl
    · cases h
  · intro h
    have lower := e.lower
    have upper := e.upper
    simp only [ofInt?]
    split
    · exact congrArg some (ext_val h.symm)
    · omega

theorem clamp_val_of_inRange {n : Int} (lower : -2147483648 ≤ n) (upper : n ≤ 2147483647) :
    (clamp n).val = n := by
  simp only [clamp]
  split
  · omega
  · split
    · omega
    · rfl

end Exponent

/-- Why a factor could not be raised to a rational power. -/
inductive PowerError where
  | nonIntegral
  | outOfRange
deriving DecidableEq, Repr

namespace Exponent

/-- The product with a fraction.  The product in lowest terms has to consist of 64-bit integers, has
to be an integer, and that integer has to be in range, in this order. -/
def scaled (a : Exponent) (q : Rat) : Except PowerError Exponent :=
  let product : Rat := (a.val : Rat) * q
  if !(fitsWord product.num && fitsWord product.den) then .error .outOfRange
  else if product.den ≠ 1 then .error .nonIntegral
  else
    match ofInt? product.num with
    | some e => .ok e
    | none => .error .outOfRange

/-- The raised form of a digit or a minus sign. -/
def raisedChar (c : Char) : Char :=
  if c == '-' then '⁻'
  else
    match ['⁰', '¹', '²', '³', '⁴', '⁵', '⁶', '⁷', '⁸', '⁹'][c.toNat - 48]? with
    | some raised => raised
    | none => c

/-- How an exponent is written behind a name: raised, and not at all if it is one. -/
def superscript (a : Exponent) : String :=
  if a = one then "" else String.ofList ((toString a.val).toList.map raisedChar)

end Exponent

end QuantityCalculus
