/-
Module: QuantityCalculus.Units.Text
Layer: Units
Purpose: Units and their errors in words.
Imports: QuantityCalculus.Units.Conversion, QuantityCalculus.Numeral.Display
Trusted boundary: none
Main exports: CompoundUnit.text, CompoundUnit.longName, UnitError.message
Open obligations: none
-/
import QuantityCalculus.Units.Conversion
import QuantityCalculus.Numeral.Display

namespace QuantityCalculus

namespace CompoundUnit

variable {α : Type}

/-- A unit in symbols, like `kg·m/s²`. -/
def text (u : CompoundUnit α) : String := Product.text u "·" "/"

/-- One factor in words.  The sign of the exponent does not show. -/
def factorName (f : Factor (NamedUnit α)) (plural : Bool) : String :=
  (if plural then f.base.names.plural else f.base.names.singular)
    ++ f.exponent.absolute.superscript

/-- Factors in words, of which only the last is put in the plural. -/
def factorNames (plural : Bool) : List (Factor (NamedUnit α)) → List String
  | [] => []
  | [f] => [factorName f plural]
  | f :: rest => factorName f false :: factorNames plural rest

/-- A unit in words, like `meters per second²`. -/
def longName (u : CompoundUnit α) (plural : Bool) : String :=
  let above := " ".intercalate
    (factorNames plural (u.factors.filter fun f => 0 < f.exponent.val))
  let below := " ".intercalate
    (factorNames false (u.factors.filter fun f => f.exponent.val < 0))
  if below.isEmpty then above
  else if above.isEmpty then "per " ++ below
  else above ++ " per " ++ below

end CompoundUnit

/-- A fraction as text, without a denominator of one. -/
def fractionText (q : Rat) : String :=
  if q.den = 1 then toString q.num else toString q.num ++ "/" ++ toString q.den

def UnitError.message {α : Type} [Written α] : UnitError α → String
  | .incompatibleDimensions source target =>
      "Incompatible dimensions: " ++ source.text ++ " and " ++ target.text
  | .nonIntegralExponent q =>
      "Raising to the power " ++ fractionText q ++ " would result in non-integer unit exponents"
  | .unsupportedExponent x =>
      "Unsupported exponent " ++ Written.plain x ++ " for a quantity with a unit"
  | .exponentOutOfRange => "Unit exponents are out of range"

end QuantityCalculus
