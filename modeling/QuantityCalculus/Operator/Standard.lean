/-
Module: QuantityCalculus.Operator.Standard
Layer: Operator
Purpose: The operators that are known from the start.
Imports: QuantityCalculus.Operator.Basic, QuantityCalculus.Scalar.Factorial
Trusted boundary: none
Main exports: standardOperators, OperatorTable.standard
Open obligations: none
-/
import QuantityCalculus.Operator.Basic
import QuantityCalculus.Scalar.Factorial

namespace QuantityCalculus

namespace StandardOperators

open OperandKind (number percent)

variable {α : Type} [Scalar α]

/-- Conditions are represented by one and zero. -/
def truth (condition : Bool) : α := if condition then 1 else 0

/-- All numbers but zero stand for a condition that holds.  What is undefined does not. -/
def holds (x : α) : Bool := !(x == 0) && !Scalar.isUndefined x

/-- The number one hundred. -/
def hundred : α := Scalar.ofDecimal 100 0

def prefixed (symbol : String) (operand : OperandKind) (function : α → α) : Operator α :=
  Operator.unary symbol operand .leading function

def postfixed (symbol : String) (function : α → α) : Operator α :=
  Operator.unary symbol number .trailing function

/-! ### Arithmetic -/

def addition : Operator α :=
  { Operator.binary "+" number number (· + ·) with preflight := .matchingUnits }

def subtraction : Operator α :=
  { Operator.binary "-" number number (· - ·) with preflight := .matchingUnits }

def multiplication : Operator α :=
  { Operator.binary "*" number number (· * ·) with units := .productUnit }

def division : Operator α :=
  { Operator.binary "/" number number (· / ·) with
    preflight := .nonZeroDivisor .noCheck
    units := .quotientUnit }

def exponentiation [Elementary α] : Operator α :=
  { Operator.binary "^" number number Elementary.pow with
    preflight := .dimensionlessExponent
    units := .powerUnit }

def modulus [Elementary α] : Operator α :=
  { Operator.binary "mod" number number Elementary.modulo with
    preflight := .nonZeroDivisor .matchingUnits }

/-! ### Percentages -/

/-- An operator on a base and a percentage of it. -/
def percentOperator (symbol : String) (left right : OperandKind) (function : α → α → α) :
    Operator α :=
  { Operator.binary symbol left right function with
    preflight := .percentAware
    units := .percentOf }

/-- An operator on two percentages. -/
def percentagesOperator (symbol : String) (function : α → α → α) : Operator α :=
  { Operator.binary symbol percent percent function with
    preflight := .noUnits
    units := .scalarUnit
    returns := .percent }

def percentages : List (Operator α) :=
  [ percentOperator "+" number percent fun x p => x * (1 + p / hundred),
    percentOperator "-" number percent fun x p => x * (1 - p / hundred),
    percentOperator "*" number percent fun x p => x * p / hundred,
    percentOperator "*" percent number fun x p => x * p / hundred,
    { percentOperator "/" number percent fun x p => x / (p / hundred) with
      preflight := .nonZeroDivisor .percentAware },
    percentagesOperator "+" (· + ·),
    percentagesOperator "-" (· - ·),
    { prefixed "-" percent fun x => -x with returns := .percent },
    { postfixed "%" fun x => x with
      preflight := .noUnits
      units := .scalarUnit
      returns := .percent } ]

/-! ### Comparisons and logic -/

/-- An operator that compares operands of matching units. -/
def comparison (symbol : String) (relation : α → α → Bool) : Operator α :=
  { Operator.binary symbol number number fun x y => truth (relation x y) with
    preflight := .matchingUnits
    units := .matchingScalar }

/-- An operator that joins two conditions. -/
def connective (symbol : String) (join : Bool → Bool → Bool) : Operator α :=
  { Operator.binary symbol number number fun x y => truth (join (holds x) (holds y)) with
    preflight := .noUnits
    units := .scalarUnit }

def comparisons : List (Operator α) :=
  [ comparison "<" fun x y => x < y,
    comparison "<=" fun x y => x ≤ y,
    comparison ">" fun x y => y < x,
    comparison ">=" fun x y => y ≤ x,
    comparison "==" fun x y => x == y,
    comparison "!=" fun x y => !(x == y),
    connective "AND" and,
    connective "OR" or,
    { prefixed "NOT" number fun x => truth (!holds x) with
      preflight := .noUnits
      units := .scalarUnit } ]

/-! ### Functions -/

/-- A function of plain numbers. -/
def scalarFunction (symbol : String) (function : α → α) : Operator α :=
  { prefixed symbol number function with
    preflight := .noUnits
    units := .scalarUnit }

/-- A function of angles. -/
def trigonometric (symbol : String) (function : α → α) : Operator α :=
  { prefixed symbol number function with
    preflight := .angleOperand
    units := .toRadians }

/-- A function whose results are angles. -/
def inverseTrigonometric (symbol : String) (function : α → α) : Operator α :=
  { prefixed symbol number function with
    preflight := .noUnits
    units := .fromRadians
    returns := .angle }

def functions [Elementary α] : List (Operator α) :=
  [ prefixed "-" number fun x => -x,
    prefixed "+" number fun x => x,
    prefixed "abs" number Scalar.abs,
    { prefixed "sqrt" number Elementary.sqrt with units := .rootUnit },
    trigonometric "sin" Elementary.sin,
    trigonometric "cos" Elementary.cos,
    trigonometric "tan" Elementary.tan,
    inverseTrigonometric "asin" Elementary.asin,
    inverseTrigonometric "acos" Elementary.acos,
    inverseTrigonometric "atan" Elementary.atan,
    scalarFunction "ln" Elementary.ln,
    scalarFunction "log" Elementary.log10,
    scalarFunction "exp" Elementary.exp,
    { postfixed "!" Scalar.factorial with
      preflight := .noUnits
      units := .scalarUnit } ]

/-! ### Conversion -/

/-- Expresses a quantity in another unit.  The rule for units does all the work, and the unit is
kept as it was asked for. -/
def conversion : Operator α :=
  { (Operator.binary "in" number number fun x _ => x : Operator α) with
    preflight := .sameDimension
    units := .conversion
    kernel := .unary fun x => x
    simplifies := false }

end StandardOperators

open StandardOperators in
/-- All operators that are known from the start, one for each symbol and signature. -/
def standardOperators {α : Type} [Scalar α] [Elementary α] : List (Operator α) :=
  [addition, subtraction, multiplication, division, exponentiation, modulus]
    ++ percentages ++ comparisons ++ functions ++ [conversion]

namespace OperatorTable

/-- The table of the operators that are known from the start. -/
def standard {α : Type} [Scalar α] [Elementary α] : OperatorTable α := ⟨standardOperators⟩

end OperatorTable

end QuantityCalculus
