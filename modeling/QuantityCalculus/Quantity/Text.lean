/-
Module: QuantityCalculus.Quantity.Text
Layer: Quantity
Purpose: Quantities as text.
Imports: QuantityCalculus.Quantity.Basic, QuantityCalculus.Units.Text,
  QuantityCalculus.Preferences.Basic
Trusted boundary: none
Main exports: Quantity.text, Quantity.display
Open obligations: none
-/
import QuantityCalculus.Quantity.Basic
import QuantityCalculus.Units.Text
import QuantityCalculus.Preferences.Basic

namespace QuantityCalculus.Quantity

variable {α : Type} [Written α]

/-- A quantity with its unit in symbols.  A percentage has no unit, and a percent sign directly
behind its number. -/
def text (q : Quantity α) : String :=
  let number := Written.pretty q.number
  match q.kind with
  | .percent => number ++ "%"
  | _ => if q.unit.isScalar then number else number ++ " " ++ q.unit.text

/-- A quantity as a user prefers it: with its unit in symbols or in words.  The plural is used for
all numbers but one. -/
def display [Scalar α] (q : Quantity α) (preferences : Preferences) : String :=
  if preferences.shortUnitNames || q.unit.isScalar then q.text
  else Written.pretty q.number ++ " " ++ q.unit.longName (!(q.number == 1))

end QuantityCalculus.Quantity
