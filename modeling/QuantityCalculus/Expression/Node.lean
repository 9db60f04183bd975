/-
Module: QuantityCalculus.Expression.Node
Layer: Expression
Purpose: The trees that statements are read into.  Every node knows the span it covers.
Imports: QuantityCalculus.Expression.Symbol
Trusted boundary: none
Main exports: Node, NodeKind, NodeError, Node.span, Node.kind, Node.literal, Node.children, and the
  functions that build nodes from their parts and offsets
Open obligations: none
-/
import QuantityCalculus.Expression.Symbol

namespace QuantityCalculus

/-- An expression or statement.  A node is built by the functions below, which compute its span from
those of its parts. -/
inductive Node where
  | number (literal : String) (span : Span)
  /-- A number literal followed by a unit. -/
  | measured (literal : String) (literalSpan : Span) (unit : Node) (span : Span)
  | identifier (name : String) (span : Span)
  | unitName (name : String) (span : Span)
  /-- Text that could not be read. -/
  | unparsed (text : String) (span : Span)
  | binary (symbol : String) (token : Token) (left right : Node) (span : Span)
  | unary (symbol : String) (fixity : Fixity) (token : Token) (operand : Node) (span : Span)
  | parenthesis (inner : Node) (span : Span)
  | unitPower (unit : Node) (token : Token) (exponent : String) (exponentSpan : Span) (span : Span)
  | unitProduct (operator : UnitOperator) (token : Token) (left right : Node) (span : Span)
  | definition (name : String) (nameSpan : Span) (constant : Bool) (value : Node) (span : Span)
  | statement (inner : Node) (span : Span)
deriving DecidableEq, Repr, Inhabited

/-- The kinds of nodes.  A number is of one kind with or without a unit. -/
inductive NodeKind where
  | number
  | identifier
  | binary
  | unary
  | parenthesis
  | unitName
  | unitPower
  | unitProduct
  | definition
  | statement
  | unparsed
deriving DecidableEq, Repr, Inhabited

/-- The name of a kind of nodes in messages. -/
def NodeKind.name : NodeKind → String
  | .number => "Number"
  | .identifier => "Identifier"
  | .binary => "Binary"
  | .unary => "Unary"
  | .parenthesis => "Parenthesis"
  | .unitName => "UnitLiteral"
  | .unitPower => "UnitPower"
  | .unitProduct => "UnitMultOp"
  | .definition => "VariableDefinition"
  | .statement => "Statement"
  | .unparsed => "UnparsedText"

/-- Why a node could not be built. -/
inductive NodeError where
  | childCount (kind : NodeKind) (expected actual : Nat)
  | unknownUnitOperator (literal : String)
deriving DecidableEq, Repr

def NodeError.message : NodeError → String
  | .childCount kind expected actual =>
      kind.name ++ " node expects " ++ toString expected ++ " children, got " ++ toString actual
  | .unknownUnitOperator literal => "'" ++ literal ++ "' is not a unit operator"

namespace Node

/-- The bytes that a node covers. -/
def span : Node → Span
  | number _ span => span
  | measured _ _ _ span => span
  | identifier _ span => span
  | unitName _ span => span
  | unparsed _ span => span
  | binary _ _ _ _ span => span
  | unary _ _ _ _ span => span
  | parenthesis _ span => span
  | unitPower _ _ _ _ span => span
  | unitProduct _ _ _ _ span => span
  | definition _ _ _ _ span => span
  | statement _ span => span

def kind : Node → NodeKind
  | number .. => .number
  | measured .. => .number
  | identifier .. => .identifier
  | unitName .. => .unitName
  | unparsed .. => .unparsed
  | binary .. => .binary
  | unary .. => .unary
  | parenthesis .. => .parenthesis
  | unitPower .. => .unitPower
  | unitProduct .. => .unitProduct
  | definition .. => .definition
  | statement .. => .statement

/-- The source text that a node stands for: the literal of a leaf, the operator as it was written,
the name of a definition. -/
def literal : Node → String
  | number literal _ => literal
  | measured literal _ _ _ => literal
  | identifier name _ => name
  | unitName name _ => name
  | unparsed text _ => text
  | binary _ token _ _ _ => token.literal
  | unary _ _ token _ _ => token.literal
  | parenthesis _ _ => "()"
  | unitPower _ token _ _ _ => token.literal
  | unitProduct _ token _ _ _ => token.literal
  | definition name _ _ _ _ => name
  | statement inner _ => inner.literal

/-- The nodes directly below a node, in the order of the source. -/
def children : Node → List Node
  | number .. => []
  | measured _ _ unit _ => [unit]
  | identifier .. => []
  | unitName .. => []
  | unparsed .. => []
  | binary _ _ left right _ => [left, right]
  | unary _ _ _ operand _ => [operand]
  | parenthesis inner _ => [inner]
  | unitPower unit _ _ _ _ => [unit]
  | unitProduct _ _ left right _ => [left, right]
  | definition _ _ _ value _ => [value]
  | statement inner _ => [inner]

/-! ### Building nodes -/

/-- A number literal without a unit. -/
def ofNumber (literal : String) (offset : Nat) : Node := number literal (Span.ofText offset literal)

/-- A number literal followed by a unit, like `3 m/s`. -/
def ofQuantity (literal : String) (offset : Nat) (unit : Node) : Node :=
  let literalSpan := Span.ofText offset literal
  measured literal literalSpan unit (literalSpan.extend unit.span)

def ofIdentifier (name : String) (offset : Nat) : Node := identifier name (Span.ofText offset name)

def ofUnitName (name : String) (offset : Nat) : Node := unitName name (Span.ofText offset name)

def ofText (text : String) (offset : Nat) : Node := unparsed text (Span.ofText offset text)

/-- A binary operator between its operands. -/
def applyBinary (left : Node) (token : Token) (right : Node) : Node :=
  binary (binarySymbol token.literal) token left right
    ((left.span.extend token.span).extend right.span)

/-- An operator before its operand. -/
def applyLeading (token : Token) (operand : Node) : Node :=
  unary (leadingSymbol token.literal) .leading token operand (token.span.extend operand.span)

/-- An operator after its operand. -/
def applyTrailing (operand : Node) (token : Token) : Node :=
  unary (trailingSymbol token.literal) .trailing token operand (operand.span.extend token.span)

/-- A node in parentheses, which stand at the two offsets. -/
def enclose (opening : Nat) (inner : Node) (closing : Nat) : Node :=
  parenthesis inner (Span.extend ⟨opening, closing + 1⟩ inner.span)

/-- A unit raised to a power. -/
def raiseUnit (unit : Node) (token : Token) (exponent : String) (offset : Nat) : Node :=
  let exponentSpan := Span.ofText offset exponent
  unitPower unit token exponent exponentSpan (unit.span.extend exponentSpan)

/-- Two units joined by a multiplication or a division. -/
def joinUnits (left : Node) (token : Token) (right : Node) : Except NodeError Node :=
  match UnitOperator.ofLiteral? token.literal with
  | some operator =>
      .ok (unitProduct operator token left right
        ((left.span.extend token.span).extend right.span))
  | none => .error (.unknownUnitOperator token.literal)

/-- The definition of a name, which may be a constant. -/
def define (name : String) (offset : Nat) (constant : Bool) (value : Node) : Node :=
  let nameSpan := Span.ofText offset name
  definition name nameSpan constant value (nameSpan.extend value.span)

/-- A node that stands as a statement of its own. -/
def asStatement (inner : Node) : Node := statement inner inner.span

/-! ### Rebuilding nodes -/

/-- A copy of a node with other children, which have to be as many as before.  The span is computed
anew; that of parentheses never shrinks. -/
def withChildren (n : Node) (children : List Node) : Except NodeError Node :=
  match n, children with
  | number literal span, [] => .ok (number literal span)
  | measured literal literalSpan _ _, [unit] =>
      .ok (measured literal literalSpan unit (literalSpan.extend unit.span))
  | identifier name span, [] => .ok (identifier name span)
  | unitName name span, [] => .ok (unitName name span)
  | unparsed text span, [] => .ok (unparsed text span)
  | binary _ token _ _ _, [left, right] => .ok (applyBinary left token right)
  | unary symbol fixity token _ _, [operand] =>
      .ok (unary symbol fixity token operand (token.span.extend operand.span))
  | parenthesis _ span, [inner] => .ok (parenthesis inner (span.extend inner.span))
  | unitPower _ token exponent exponentSpan _, [unit] =>
      .ok (unitPower unit token exponent exponentSpan (unit.span.extend exponentSpan))
  | unitProduct operator token _ _ _, [left, right] =>
      .ok (unitProduct operator token left right
        ((left.span.extend token.span).extend right.span))
  | definition name nameSpan constant _ _, [value] =>
      .ok (definition name nameSpan constant value (nameSpan.extend value.span))
  | statement _ _, [inner] => .ok (asStatement inner)
  | _, _ => .error (.childCount n.kind n.children.length children.length)

end Node

end QuantityCalculus
