/-
Module: QuantityCalculus.Evaluation.Diagnostic
Layer: Evaluation
Purpose: What may go wrong at a node, where it went wrong, and how it is presented.
Imports: QuantityCalculus.Units.Text, QuantityCalculus.Numeral.Literal,
  QuantityCalculus.Operator.Signature
Trusted boundary: none
Main exports: EvaluationError, EvaluationError.code, EvaluationError.message, Diagnostic,
  Diagnostic.present
Open obligations: none
-/
import QuantityCalculus.Units.Text
import QuantityCalculus.Numeral.Literal
import QuantityCalculus.Operator.Signature

namespace QuantityCalculus

/-- What may go wrong at a single node. -/
inductive EvaluationError (α : Type) where
  | dimensionMismatch (expected actual : Dimension)
  | divideByZero
  | unit (error : UnitError α)
  | unknownVariable (name : String) (suggestion : Option String)
  | unknownOperator (symbol : String) (signature : Signature)
  | unknownUnit (name : String) (suggestion : Option String)
  | invalidNumber (error : LiteralError)
  | readOnlyVariable (name : String)
deriving Repr

namespace EvaluationError

variable {α : Type}

/-- The code of a kind of errors. -/
def code : EvaluationError α → String
  | dimensionMismatch _ _ => "DIMENSION_MISMATCH"
  | divideByZero => "DIVIDE_BY_ZERO"
  | unit _ => "UNIT_ERROR"
  | unknownVariable _ _ => "UNKNOWN_VARIABLE"
  | unknownOperator _ _ => "UNKNOWN_OPERATOR"
  | unknownUnit _ _ => "UNKNOWN_UNIT"
  | invalidNumber _ => "INVALID_NUMBER"
  | readOnlyVariable _ => "READ_ONLY_VARIABLE"

/-- The name that was most likely meant. -/
def suggestion? : EvaluationError α → Option String
  | unknownVariable _ suggestion => suggestion
  | unknownUnit _ suggestion => suggestion
  | _ => none

def message [Written α] : EvaluationError α → String
  | dimensionMismatch expected actual =>
      "Dimension mismatch: " ++ expected.text ++ " is not compatible with " ++ actual.text
  | divideByZero => "Division by zero"
  | unit error => error.message
  | unknownVariable name _ => "Unknown variable '" ++ name ++ "'"
  | unknownOperator symbol signature => "No operator '" ++ symbol ++ "' for " ++ signature.text
  | unknownUnit name _ => "Unknown unit '" ++ name ++ "'"
  | invalidNumber error => error.message
  | readOnlyVariable name => "Cannot redefine the constant '" ++ name ++ "'"

end EvaluationError

/-- An error at a node, which is known by its span, and the span of a second node involved. -/
structure Diagnostic (α : Type) where
  error : EvaluationError α
  primary : Span
  secondary : Option Span
deriving Repr

/-- How a label is related to a diagnostic. -/
inductive LabelStyle where
  | primary
  | secondary
deriving DecidableEq, Repr

/-- A remark on a range of a source file. -/
structure Label where
  style : LabelStyle
  file : Nat
  span : Span
  message : String
deriving DecidableEq, Repr

/-- A diagnostic as it is presented against a source file. -/
structure Presentation where
  code : String
  message : String
  labels : List Label
  notes : List String
deriving DecidableEq, Repr

namespace Diagnostic

variable {α : Type} [Written α]

/-- The remarks on the primary and on the secondary span. -/
def remarks (error : EvaluationError α) : String × String :=
  match error with
  | .dimensionMismatch expected actual => (expected.text, actual.text)
  | .divideByZero => ("divisor is zero", "")
  | error => (error.message, "")

/-- Presents a diagnostic against the source file of a given number. -/
def present (d : Diagnostic α) (file : Nat) : Presentation :=
  let (primaryRemark, secondaryRemark) := remarks d.error
  let secondary := match d.secondary with
    | some span => [⟨.secondary, file, span, secondaryRemark⟩]
    | none => []
  let notes := match d.error.suggestion? with
    | some name => ["Did you mean '" ++ name ++ "'?"]
    | none => []
  { code := d.error.code
    message := d.error.message
    labels := ⟨.primary, file, d.primary, primaryRemark⟩ :: secondary
    notes := notes }

end Diagnostic

end QuantityCalculus
