/-
Module: QuantityCalculus.Operator.Signature
Layer: Operator
Purpose: The operands of operators, and the signatures by which operators are resolved.
Imports: QuantityCalculus.Expression.Symbol, QuantityCalculus.Quantity.Basic
Trusted boundary: none
Main exports: OperandKind, Signature, Operand, Operands, Operands.signature
Open obligations: none
-/
import QuantityCalculus.Expression.Symbol
import QuantityCalculus.Quantity.Basic

namespace QuantityCalculus

/-- What counts about an operand when an operator is resolved. -/
inductive OperandKind where
  | number
  | percent
deriving DecidableEq, Repr, Inhabited

namespace OperandKind

/-- Angles resolve like plain numbers. -/
def ofValueKind : ValueKind → OperandKind
  | .number => number
  | .angle => number
  | .percent => percent

def text : OperandKind → String
  | number => "number"
  | percent => "percent"

end OperandKind

/-- The number, kinds and places of the operands of an operator. -/
inductive Signature where
  | binary (left right : OperandKind)
  | unary (operand : OperandKind) (fixity : Fixity)
deriving DecidableEq, Repr, Inhabited

def Signature.text : Signature → String
  | binary left right => "(" ++ left.text ++ ", " ++ right.text ++ ")"
  | unary operand .leading => "prefix " ++ operand.text
  | unary operand .trailing => "postfix " ++ operand.text

/-- A value together with the span of the node that it is the value of. -/
structure Operand (α : Type) where
  span : Span
  value : Quantity α

/-- The operands of one application of an operator.  A unary operator has no right one. -/
structure Operands (α : Type) where
  left : Operand α
  right : Option (Operand α)

namespace Operands

variable {α : Type}

def toList (o : Operands α) : List (Operand α) := o.left :: o.right.toList

/-- The signature that an operator for these operands needs.  The fixity counts for unary operators
only. -/
def signature (o : Operands α) (fixity : Fixity) : Signature :=
  let left := OperandKind.ofValueKind o.left.value.kind
  match o.right with
  | some right => .binary left (OperandKind.ofValueKind right.value.kind)
  | none => .unary left fixity

end Operands

end QuantityCalculus
