/-
Module: QuantityCalculus.Expression.Text
Layer: Expression
Purpose: The structure of a tree as text, in canonical symbols.
Imports: QuantityCalculus.Expression.Node
Trusted boundary: none
Main exports: Node.text
Open obligations: none
-/
import QuantityCalculus.Expression.Node

namespace QuantityCalculus

/-- A tree as text.  Operators stand in parentheses with their operands, units do not. -/
def Node.text : Node → String
  | .number literal _ => literal
  | .measured literal _ unit _ => literal ++ " " ++ unit.text
  | .identifier name _ => name
  | .unitName name _ => name
  | .unparsed text _ => text
  | .binary symbol _ left right _ =>
      "(" ++ left.text ++ " " ++ symbol ++ " " ++ right.text ++ ")"
  | .unary symbol .leading _ operand _ => "(" ++ symbol ++ " " ++ operand.text ++ ")"
  | .unary symbol .trailing _ operand _ => "(" ++ operand.text ++ symbol ++ ")"
  | .parenthesis inner _ => inner.text
  | .unitPower unit _ exponent _ _ => unit.text ++ "^" ++ exponent
  | .unitProduct .multiply _ left right _ => left.text ++ "·" ++ right.text
  | .unitProduct .divide _ left right _ => left.text ++ "/" ++ right.text
  | .definition name _ true value _ => "const " ++ name ++ " = " ++ value.text
  | .definition name _ false value _ => name ++ " = " ++ value.text
  | .statement inner _ => inner.text

end QuantityCalculus
