/-
Module: QuantityCalculus.Operator.Basic
Layer: Operator
Purpose: Operators put together from a check, a rule for units and a kernel for numbers, and the
  table in which they are found.
Imports: QuantityCalculus.Operator.UnitRule, QuantityCalculus.Units.Simplification
Trusted boundary: none
Main exports: Kernel, Operator, Operator.binary, Operator.unary, Operator.apply, OperatorTable,
  OperatorTable.register, OperatorTable.resolve?
Open obligations: none
-/
import QuantityCalculus.Operator.UnitRule
import QuantityCalculus.Units.Simplification

namespace QuantityCalculus

/-- What an operator does to plain numbers. -/
inductive Kernel (α : Type) where
  | unary (function : α → α)
  | binary (function : α → α → α)

/-- Applies a kernel.  A unary one ignores the second number, and a binary one has no result without
it. -/
def Kernel.apply {α : Type} [Scalar α] (kernel : Kernel α) (x : α) (y : Option α) : α :=
  match kernel, y with
  | unary function, _ => function x
  | binary function, some y => function x y
  | binary _, none => Scalar.undefined

/-- An operator for one symbol and one signature. -/
structure Operator (α : Type) where
  symbol : String
  signature : Signature
  /-- What the result is meant as. -/
  returns : ValueKind
  preflight : Preflight
  units : UnitRule
  kernel : Kernel α
  /-- Whether the unit of the result is brought into a more readable form. -/
  simplifies : Bool

namespace Operator

variable {α : Type}

/-- A binary operator on operands of matching units. -/
def binary (symbol : String) (left right : OperandKind) (function : α → α → α) : Operator α :=
  { symbol := symbol
    signature := .binary left right
    returns := .number
    preflight := .noCheck
    units := .matching
    kernel := .binary function
    simplifies := true }

/-- A unary operator that keeps the unit of its operand. -/
def unary (symbol : String) (operand : OperandKind) (fixity : Fixity) (function : α → α) :
    Operator α :=
  { symbol := symbol
    signature := .unary operand fixity
    returns := .number
    preflight := .noCheck
    units := .sameUnit
    kernel := .unary function
    simplifies := true }

variable [Scalar α]

/-- The result of a calculation. -/
def finish (op : Operator α) (env : Environment α) (c : Calculation α) : Quantity α :=
  let number := op.kernel.apply c.first c.second * c.scale
  if op.simplifies then
    let simplified := env.units.simplify c.unit
    ⟨number * simplified.factor, simplified.unit, op.returns⟩
  else ⟨number, c.unit, op.returns⟩

/-- Applies an operator, unless its check or its rule for units has something to report. -/
def apply (op : Operator α) (env : Environment α) (operands : Operands α) :
    Except (List (Diagnostic α)) (Quantity α) :=
  match op.preflight.check env operands with
  | [] => (op.units.calculate env operands).map (op.finish env)
  | reports => .error reports

end Operator

/-- Why an operator could not be registered. -/
inductive OperatorTableError where
  | duplicate (symbol : String) (signature : Signature)
deriving DecidableEq, Repr

def OperatorTableError.message : OperatorTableError → String
  | .duplicate symbol signature =>
      "An operator '" ++ symbol ++ "' for " ++ signature.text ++ " exists already"

/-- Operators in the order in which they were registered.  No two of them share symbol and
signature. -/
structure OperatorTable (α : Type) where
  operators : List (Operator α)

namespace OperatorTable

variable {α : Type}

def empty : OperatorTable α := ⟨[]⟩

/-- The operator for a symbol and a signature. -/
def resolve? (t : OperatorTable α) (symbol : String) (signature : Signature) :
    Option (Operator α) :=
  t.operators.find? fun op => op.symbol == symbol && op.signature == signature

/-- Registers an operator under its symbol and signature, which have to be free. -/
def register (t : OperatorTable α) (op : Operator α) :
    Except OperatorTableError (OperatorTable α) :=
  match t.resolve? op.symbol op.signature with
  | some _ => .error (.duplicate op.symbol op.signature)
  | none => .ok ⟨t.operators ++ [op]⟩

def size (t : OperatorTable α) : Nat := t.operators.length

/-- All symbols, each once, in the order of registration. -/
def symbols (t : OperatorTable α) : List String :=
  t.operators.foldl
    (fun seen op => if seen.contains op.symbol then seen else seen ++ [op.symbol]) []

end OperatorTable

end QuantityCalculus
