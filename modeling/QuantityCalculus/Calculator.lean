/-
Module: QuantityCalculus.Calculator
Layer: Calculator
Purpose: A scope together with the preferences of a user: statements are evaluated one after
  another, and results are displayed.
Imports: QuantityCalculus.Evaluation.Evaluator, QuantityCalculus.Preferences.Document,
  QuantityCalculus.Quantity.Text
Trusted boundary: none
Main exports: Calculator, Calculator.evaluate, Calculator.display, Calculator.loadPreferences
Open obligations: none
-/
import QuantityCalculus.Evaluation.Evaluator
import QuantityCalculus.Preferences.Document
import QuantityCalculus.Quantity.Text

namespace QuantityCalculus

/-- Definitions and the last result carry over from one statement to the next. -/
structure Calculator (α : Type) where
  scope : Scope α
  preferences : Preferences

namespace Calculator

variable {α : Type}

/-- A calculator with the standard preferences. -/
def ofScope (scope : Scope α) : Calculator α := ⟨scope, Preferences.standard⟩

/-- The same calculator, with nothing remembered of earlier questions about schemes. -/
def copy (c : Calculator α) : Calculator α := { c with scope := c.scope.copy }

/-- Replaces the preferences by those of a document, if it can be read. -/
def loadPreferences (c : Calculator α) (document : String) :
    Except PreferencesError (Calculator α) :=
  (Preferences.ofDocument document).map fun preferences => { c with preferences := preferences }

variable [Scalar α]

/-- Evaluates a statement. -/
def evaluate [Elementary α] (c : Calculator α) (n : Node) : Evaluation α × Calculator α :=
  let (evaluation, scope) := evaluateStatement c.scope c.preferences n
  (evaluation, { c with scope := scope })

/-- A quantity as text, in a unit of the preferred scheme if there is one for its dimension. -/
def display [Written α] (c : Calculator α) (q : Quantity α) : String × Calculator α :=
  match c.preferences.unitScheme with
  | none => (q.display c.preferences, c)
  | some scheme =>
      let (converted, scope) := c.scope.convertToScheme q scheme
      ((converted.getD q).display c.preferences, { c with scope := scope })

end Calculator

end QuantityCalculus
