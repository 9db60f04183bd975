/-
Module: QuantityCalculus.Numeral.Display
Layer: Numeral
Purpose: Numbers as they are shown to people: integers in groups of three digits, all others with
  six significant digits.
Imports: QuantityCalculus.Scalar.Double, QuantityCalculus.Numeral.Shortest
Trusted boundary: none
Main exports: Written, groupedInteger, prettyNumber, plainNumber
Open obligations: none
-/
import QuantityCalculus.Scalar.Double
import QuantityCalculus.Numeral.Shortest

namespace QuantityCalculus

/-- Numbers that can be written down. -/
class Written (α : Type) where
  /-- The form in which results are shown. -/
  pretty : α → String
  /-- The form that shows every digit needed to tell the number apart. -/
  plain : α → String

/-- Inserts a space before every third digit counted from the right, except at the very front. -/
def groupDigits (digits : List Char) : List Char :=
  match digits with
  | [] => []
  | c :: rest =>
      if rest.length % 3 = 0 && !rest.isEmpty then c :: ' ' :: groupDigits rest
      else c :: groupDigits rest

/-- From this absolute value on the digits of an integer are grouped. -/
def groupingThreshold : Nat := 10000

/-- An integer in decimal digits.  Those of at least five digits are grouped. -/
def groupedInteger (n : Int) : String :=
  let digits := Nat.toDigits 10 n.natAbs
  let grouped := if groupingThreshold ≤ n.natAbs then groupDigits digits else digits
  String.ofList (if n < 0 then '-' :: grouped else grouped)

/-- Larger integers are written with an exponent. -/
def integerLimit : Nat := Nat.pow 10 15

/-- The number of digits that a number other than an integer is rounded to. -/
def significantDigits : Nat := 6

/-- The power of ten behind a number, with its sign in any case. -/
def signedPower (n : Int) : String :=
  if n < 0 then "e-" ++ toString n.natAbs else "e+" ++ toString n.natAbs

/-- A positive number with six significant digits.  Below `10 ^ (-6)` and from `10 ^ 15` on it is
written with an exponent, and zeros at the end of its digits stay; elsewhere zeros at the end of the
fraction are dropped. -/
def prettyDigits (d : Digits) : String :=
  let r := d.rounded significantDigits
  if r.exponent > 15 || r.exponent ≤ -6 then r.scientific signedPower
  else if (r.digits.length : Int) ≤ r.exponent then r.positional
  else
    let fraction := Digits.dropTrailingZeros (r.digits.drop r.exponent.toNat)
    if fraction.isEmpty then (Digits.mk (r.digits.take r.exponent.toNat) r.exponent).positional
    else (Digits.mk (r.digits.take r.exponent.toNat ++ fraction) r.exponent).positional

/-- Writes a number, given how a positive one is written. -/
def writeFloat (positive : Digits → String) (x : Float) : String :=
  match Dyadic64.ofFloat? x with
  | none => if x.isNaN then "NaN" else if x < 0.0 then "-inf" else "inf"
  | some d =>
      let size := if d.significand = 0 then "0" else positive (Digits.shortest d)
      if d.negative then "-" ++ size else size

/-- A number as it is shown to people. -/
def prettyNumber (x : Float) : String :=
  match (Dyadic64.ofFloat? x).bind Dyadic64.toInt? with
  | some n => if n.natAbs < integerLimit then groupedInteger n else writeFloat prettyDigits x
  | none => writeFloat prettyDigits x

/-- A number with all the digits that determine it and without an exponent. -/
def plainNumber (x : Float) : String := writeFloat Digits.positional x

instance : Written Float where
  pretty := prettyNumber
  plain := plainNumber

end QuantityCalculus
