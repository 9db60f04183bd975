/-
Module: QuantityCalculus.Preferences.Basic
Layer: Preferences
Purpose: What a user may choose about evaluation and display.
Imports: none
Trusted boundary: none
Main exports: Preferences, Preferences.standard
Open obligations: none
-/
namespace QuantityCalculus

/-- The choices of a user. -/
structure Preferences where
  /-- The unit of angles without a unit, and of the results of inverse trigonometric functions.
  Without a choice these are radians. -/
  angleUnit : Option String
  /-- The scheme that display units are picked from. -/
  unitScheme : Option String
  /-- Whether units are displayed by their symbols instead of their long names. -/
  shortUnitNames : Bool
deriving DecidableEq, Repr

/-- The choices in force as long as a user makes none. -/
def Preferences.standard : Preferences := ⟨none, none, true⟩

instance : Inhabited Preferences := ⟨Preferences.standard⟩

end QuantityCalculus
