/-
Module: QuantityCalculus.Numeral.Shortest
Layer: Numeral
Purpose: The fewest decimal digits that determine a double-precision number, and their rounding.
Imports: QuantityCalculus.Scalar.Binary64
Trusted boundary: none
Main exports: Digits, Digits.shortest, Digits.rounded
Open obligations: none
-/
import QuantityCalculus.Scalar.Binary64

namespace QuantityCalculus

/-- The number `0.d₁d₂d₃… * 10 ^ exponent`, given by its digits. -/
structure Digits where
  digits : List Nat
  exponent : Int
deriving DecidableEq, Repr

namespace Digits

/-- The decimal digits of a natural number, the most significant one first. -/
def ofNat (n : Nat) : List Nat :=
  (Nat.toDigits 10 n).map fun c => c.toNat - 48

/-- A list of digits without the zeros at its end. -/
def dropTrailingZeros (ds : List Nat) : List Nat :=
  (ds.reverse.dropWhile (· == 0)).reverse

/-- The `exponent` of a positive number, the power of ten just above it.  Every double-precision
number is at least `10 ^ (-400)`, so the digits of its integer part after scaling by `10 ^ 400` can
be counted. -/
def magnitude (x : Dyadic64) : Int :=
  let scaled :=
    if 0 ≤ x.exponent then x.significand * Nat.pow 10 400 * Nat.pow 2 x.exponent.toNat
    else x.significand * Nat.pow 10 400 / Nat.pow 2 (-x.exponent).toNat
  ((Nat.toDigits 10 scaled).length : Int) - 400

/-- The numbers that round to a given one, on a scale on which the multiples of `unit` are the
points of a decimal grid. -/
structure RoundingInterval where
  lower : Nat
  value : Nat
  upper : Nat
  unit : Nat
  /-- Whether the two ends belong to the interval. -/
  closed : Bool
deriving DecidableEq, Repr

/-- The rounding interval of a positive number on the grid of multiples of `10 ^ grid`.  It reaches
halfway to both neighbours, and the lower one is nearer if the number is a power of two.  The ends
belong to it if the significand is even. -/
def roundingInterval (x : Dyadic64) (grid : Int) : RoundingInterval :=
  let quarter := x.exponent - 2
  let scale := Nat.pow 2 quarter.toNat * Nat.pow 10 (-grid).toNat
  let unit := Nat.pow 2 (-quarter).toNat * Nat.pow 10 grid.toNat
  let below := if x.significand = Nat.pow 2 52 && x.exponent > Dyadic64.minExponent then 1 else 2
  { lower := (4 * x.significand - below) * scale
    value := 4 * x.significand * scale
    upper := (4 * x.significand + 2) * scale
    unit := unit
    closed := x.significand % 2 == 0 }

namespace RoundingInterval

/-- Whether the `n`-th point of the grid lies in the interval. -/
def contains (r : RoundingInterval) (n : Nat) : Bool :=
  if r.closed then r.lower ≤ n * r.unit && n * r.unit ≤ r.upper
  else r.lower < n * r.unit && n * r.unit < r.upper

/-- The point of the grid in the interval that is nearest to the value; of two equally near ones the
even one. -/
def nearest? (r : RoundingInterval) : Option Nat :=
  let below := r.value / r.unit
  let rest := r.value % r.unit
  let nearAbove := 2 * rest > r.unit || (2 * rest == r.unit && below % 2 == 1)
  let (first, second) := if nearAbove then (below + 1, below) else (below, below + 1)
  if first ≠ 0 && r.contains first then some first
  else if second ≠ 0 && r.contains second then some second
  else none

end RoundingInterval

/-- The fewest digits that determine a positive double-precision number, and the nearest ones to it
among them.  Seventeen digits always determine it. -/
def shortest (x : Dyadic64) : Digits :=
  let exponent := magnitude x
  let found := (List.range 17).findSome? fun k =>
    let count : Nat := k + 1
    (roundingInterval x (exponent - count)).nearest?.map fun n =>
      let ds : List Nat := ofNat n
      Digits.mk (dropTrailingZeros ds) (exponent - count + ds.length)
  found.getD ⟨[], exponent⟩

/-- Adds one to the last digit.  Nines are dropped and carried over, and if nothing else is left the
number becomes a power of ten. -/
def increment (d : Digits) : Digits :=
  match d.digits.reverse.dropWhile (· == 9) with
  | [] => ⟨[1], d.exponent + 1⟩
  | last :: before => ⟨((last + 1) :: before).reverse, d.exponent⟩

/-- Keeps at most `count` digits and rounds by the first one that is left out, five and above up. -/
def rounded (d : Digits) (count : Nat) : Digits :=
  match d.digits.drop count with
  | [] => d
  | next :: _ =>
      let kept : Digits := ⟨d.digits.take count, d.exponent⟩
      if 5 ≤ next then kept.increment else kept

/-- The digits as text. -/
def text (ds : List Nat) : String := String.join (ds.map toString)

/-- The number written without an exponent. -/
def positional (d : Digits) : String :=
  if d.exponent ≤ 0 then "0." ++ text (List.replicate (-d.exponent).toNat 0 ++ d.digits)
  else
    let whole := d.exponent.toNat
    if d.digits.length ≤ whole then
      text (d.digits ++ List.replicate (whole - d.digits.length) 0)
    else text (d.digits.take whole) ++ "." ++ text (d.digits.drop whole)

/-- The number written with one digit before the point, at least one after it, and the power of ten
in `power`. -/
def scientific (d : Digits) (power : Int → String) : String :=
  let fraction := match d.digits.drop 1 with
    | [] => [0]
    | ds => ds
  text (d.digits.take 1) ++ "." ++ text fraction ++ power (d.exponent - 1)

end Digits

end QuantityCalculus
