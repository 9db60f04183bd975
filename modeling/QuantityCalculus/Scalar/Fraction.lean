/-
Module: QuantityCalculus.Scalar.Fraction
Layer: Scalar
Purpose: Fractions close to a double-precision number, by continued fractions.
Imports: none
Trusted boundary: none
Main exports: fractionNear?
Open obligations: none
-/
namespace QuantityCalculus

/-- The numerators and denominators of a fraction are 64-bit integers. -/
def maxFractionPart : Nat := Nat.pow 2 63 - 1

/-- Two neighbouring convergents of a continued fraction: the previous one and the current one.  The
current one is in lowest terms. -/
structure Convergents where
  previousNumerator : Nat
  previousDenominator : Nat
  numerator : Nat
  denominator : Nat
deriving Repr, DecidableEq

namespace Convergents

/-- Before the first term, the convergents are `0 / 1` and `1 / 0`. -/
def start : Convergents := ⟨0, 1, 1, 0⟩

/-- Whether the convergent after the next term `a` would leave the 64-bit integers. -/
def overflows (c : Convergents) (a : Nat) : Bool :=
  a != 0
    && (c.numerator > maxFractionPart / a || c.denominator > maxFractionPart / a
      || a * c.numerator > maxFractionPart - c.previousNumerator
      || a * c.denominator > maxFractionPart - c.previousDenominator)

/-- The numerator and denominator that the next term `a` leads to, before reduction. -/
def nextParts (c : Convergents) (a : Nat) : Nat × Nat :=
  (a * c.numerator + c.previousNumerator, a * c.denominator + c.previousDenominator)

/-- The convergents after the next term `a`. -/
def next (c : Convergents) (a : Nat) : Convergents :=
  let (n, d) := c.nextParts a
  let g := Nat.gcd n d
  if g = 0 then ⟨c.numerator, c.denominator, n, d⟩
  else ⟨c.numerator, c.denominator, n / g, d / g⟩

end Convergents

/-- The double-precision number closest to a natural number below `2 ^ 64`. -/
def floatOfWord (n : Nat) : Float := n.toUInt64.toFloat

/-- Adds terms of the continued fraction of `value` until the convergent is close enough, no term is
left, a part would overflow, or the given number of rounds is over.  `rest` is the number whose
integer part is the next term. -/
def convergentsNear (value : Float) : Nat → Float → Convergents → Convergents
  | 0, _, c => c
  | rounds + 1, rest, c =>
      if rest ≥ 9223372036854775808.0 then c
      else
        let a := rest.toUInt64.toNat
        let fraction := rest - floatOfWord a
        if c.overflows a then c
        else
          let (n, d) := c.nextParts a
          let c := c.next a
          if (floatOfWord n / floatOfWord d - value).abs < 10e-20 then c
          else if fraction < 1.0 / floatOfWord maxFractionPart then c
          else convergentsNear value rounds (1.0 / fraction) c

/-- A fraction close to a finite number, from at most thirty terms of its continued fraction. -/
def fractionNear? (value : Float) : Option Rat :=
  let size := value.abs
  if size > floatOfWord maxFractionPart then none
  else
    let c := convergentsNear size 30 size Convergents.start
    if c.denominator = 0 then none
    else
      let fraction := mkRat c.numerator c.denominator
      some (if value < 0.0 then -fraction else fraction)

end QuantityCalculus
