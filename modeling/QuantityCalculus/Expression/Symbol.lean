/-
Module: QuantityCalculus.Expression.Symbol
Layer: Expression
Purpose: Operators as they are written, and the canonical symbols of their spellings.
Imports: QuantityCalculus.Expression.Span, QuantityCalculus.Text.Blank
Trusted boundary: none
Main exports: Token, Fixity, UnitOperator, binarySymbol, leadingSymbol, trailingSymbol,
  UnitOperator.ofLiteral?
Open obligations: none
-/
import QuantityCalculus.Expression.Span
import QuantityCalculus.Text.Blank

namespace QuantityCalculus

/-- An operator as it was written, and where. -/
structure Token where
  literal : String
  span : Span
deriving DecidableEq, Repr, Inhabited

/-- The operator written at an offset. -/
def Token.ofText (literal : String) (offset : Nat) : Token := ⟨literal, Span.ofText offset literal⟩

/-- The multiplication that is implied where two operands stand side by side. -/
def Token.juxtaposition (offset : Nat) : Token := Token.ofText " " offset

/-- Whether a unary operator stands before or after its operand. -/
inductive Fixity where
  | leading
  | trailing
deriving DecidableEq, Repr, Inhabited

/-- The operators that join units. -/
inductive UnitOperator where
  | multiply
  | divide
deriving DecidableEq, Repr, Inhabited

/-- The symbol of a binary operator.  Blanks around its spelling do not count, and nothing at all is
a multiplication. -/
def binarySymbol (literal : String) : String :=
  match Text.trimBlanks literal with
  | "" | "*" | "×" | "·" | "at" | "of" => "*"
  | "/" | "÷" | "per" | "every" => "/"
  | "-" | "−" => "-"
  | "&&" | "and" => "AND"
  | "||" | "or" => "OR"
  | "to" | "as" | "->" | "→" => "in"
  | "≤" => "<="
  | "≥" => ">="
  | "≠" => "!="
  | "=" => "=="
  | "**" => "^"
  | other => other

/-- The symbol of an operator that stands before its operand. -/
def leadingSymbol (literal : String) : String :=
  match Text.trimBlanks literal with
  | "!" | "not" | "¬" => "NOT"
  | "√" => "sqrt"
  | "−" => "-"
  | other => other

/-- The symbol of an operator that stands after its operand. -/
def trailingSymbol (literal : String) : String := Text.trimBlanks literal

/-- The unit operator that a spelling stands for. -/
def UnitOperator.ofLiteral? (literal : String) : Option UnitOperator :=
  match binarySymbol literal with
  | "*" => some .multiply
  | "/" => some .divide
  | _ => none

end QuantityCalculus
