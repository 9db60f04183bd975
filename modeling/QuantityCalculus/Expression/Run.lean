/-
Module: QuantityCalculus.Expression.Run
Layer: Expression
Purpose: Trees from the flat runs of operators and operands in which expressions are read.
Imports: QuantityCalculus.Expression.Node
Trusted boundary: none
Main exports: Run, Node.foldLeft, Node.foldRight, foldRight_cons, Node.foldLeading,
  Node.foldTrailing, Node.foldUnits
Open obligations: none
-/
import QuantityCalculus.Expression.Node

namespace QuantityCalculus

/-- What follows the first operand of a run: operators, each with the operand after it. -/
abbrev Run := List (Token × Node)

namespace Node

/-- A run that groups to the left: `a - b - c` is `(a - b) - c`. -/
def foldLeft (head : Node) (tail : Run) : Node :=
  tail.foldl (fun left (token, right) => applyBinary left token right) head

/-- Puts one more operand in front of what has been joined, by the operator that was left over.  The
operator in front of the new operand is left over instead. -/
def joinLeftwards (joined step : Token × Node) : Token × Node :=
  (step.1, applyBinary step.2 joined.1 joined.2)

/-- A run that groups to the right: `a ^ b ^ c` is `a ^ (b ^ c)`.  It is joined from its end. -/
def foldRight (head : Node) (tail : Run) : Node :=
  match tail.reverse with
  | [] => head
  | last :: earlier =>
      let joined := earlier.foldl joinLeftwards last
      applyBinary head joined.1 joined.2

/-- The first operator of a run that groups to the right is applied to all that follows. -/
theorem foldRight_cons (head : Node) (token : Token) (next : Node) (rest : Run) :
    foldRight head ((token, next) :: rest) = applyBinary head token (foldRight next rest) := by
  simp only [foldRight, List.reverse_cons]
  cases rest.reverse with
  | nil => rfl
  | cons last earlier =>
      simp only [List.cons_append, List.foldl_append, List.foldl_cons, List.foldl_nil]
      rfl

/-- Operators before an operand, the last of which is applied first: `- √ x` is `-(√x)`. -/
def foldLeading (tokens : List Token) (operand : Node) : Node :=
  tokens.foldr applyLeading operand

/-- Operators after an operand, the first of which is applied first: `3!%` is `(3!)%`. -/
def foldTrailing (operand : Node) (tokens : List Token) : Node :=
  tokens.foldl applyTrailing operand

/-- A run of units, which groups to the left: `kg m / s / s` is `((kg·m)/s)/s`. -/
def foldUnits (head : Node) (tail : Run) : Except NodeError Node :=
  tail.foldlM (fun left (token, right) => joinUnits left token right) head

end Node

end QuantityCalculus
