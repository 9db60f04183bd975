/-
Module: QuantityCalculus.Numeral.Literal
Layer: Numeral
Purpose: The number literals of expressions: an optional sign, digits with at most one point, an
  optional exponent, and group separators anywhere.
Imports: QuantityCalculus.Scalar.Basic
Trusted boundary: none
Main exports: Decimal, Decimal.ofChars?, Decimal.toScalar, parseLiteral
Open obligations: none
-/
import QuantityCalculus.Scalar.Basic

namespace QuantityCalculus

/-- What is wrong with a number literal. -/
inductive LiteralError where
  | invalid (literal : String)
deriving DecidableEq, Repr

namespace LiteralError

def message : LiteralError → String
  | invalid literal => "Invalid number literal '" ++ literal ++ "'"

end LiteralError

/-- The decimal number `± coefficient * 10 ^ exponent`.  The sign is kept for zero as well. -/
structure Decimal where
  negative : Bool
  coefficient : Nat
  exponent : Int
deriving DecidableEq, Repr

namespace Decimal

/-- Spaces, narrow no-break spaces, underscores and commas group digits and mean nothing. -/
def isSeparator (c : Char) : Bool :=
  c == ' ' || c == '_' || c == ',' || c.toNat == 0x202F

/-- The characters of literals without separators.  The names of infinite and undefined numbers have
other letters in them. -/
def isNumeralChar (c : Char) : Bool :=
  c.isDigit || c == '.' || c == 'e' || c == 'E' || c == '+' || c == '-'

/-- The number written by a list of decimal digits. -/
def digitsValue (digits : List Char) : Nat :=
  digits.foldl (fun n c => 10 * n + (c.toNat - 48)) 0

/-- Splits off a leading sign; the flag tells whether it is a minus. -/
def splitSign : List Char → Bool × List Char
  | '-' :: rest => (true, rest)
  | '+' :: rest => (false, rest)
  | rest => (false, rest)

/-- Splits off the leading digits. -/
def splitDigits (cs : List Char) : List Char × List Char :=
  (cs.takeWhile Char.isDigit, cs.dropWhile Char.isDigit)

/-- Splits off a point and the digits after it, if a point comes first. -/
def splitFraction : List Char → List Char × List Char
  | '.' :: rest => splitDigits rest
  | rest => ([], rest)

/-- Reads what follows the digits of a literal: nothing, or an exponent up to the end. -/
def exponentOfChars? : List Char → Option Int
  | [] => some 0
  | c :: rest =>
      if c == 'e' || c == 'E' then
        let (negative, rest) := splitSign rest
        let (digits, rest) := splitDigits rest
        if digits.isEmpty || !rest.isEmpty then none
        else some (if negative then -(digitsValue digits : Int) else digitsValue digits)
      else none

/-- Reads a literal without separators.  There has to be a digit before the exponent, on either side
of the point. -/
def ofChars? (cs : List Char) : Option Decimal :=
  let (negative, rest) := splitSign cs
  let (whole, rest) := splitDigits rest
  let (fraction, rest) := splitFraction rest
  if whole.isEmpty && fraction.isEmpty then none
  else
    (exponentOfChars? rest).map fun exponent =>
      ⟨negative, digitsValue (whole ++ fraction), exponent - fraction.length⟩

/-- The number that is closest to a decimal one. -/
def toScalar {α : Type} [Scalar α] (d : Decimal) : α :=
  let size : α := Scalar.ofDecimal d.coefficient d.exponent
  if d.negative then -size else size

end Decimal

/-- The number that a literal stands for once its separators are removed. -/
def parseLiteral {α : Type} [Scalar α] (literal : String) : Except LiteralError α :=
  let chars := literal.toList.filter fun c => !Decimal.isSeparator c
  if chars.isEmpty || !chars.all Decimal.isNumeralChar then .error (.invalid literal)
  else
    match Decimal.ofChars? chars with
    | some d => .ok d.toScalar
    | none => .error (.invalid literal)

end QuantityCalculus
