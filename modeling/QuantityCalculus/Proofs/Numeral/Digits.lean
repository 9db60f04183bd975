/-
Module: QuantityCalculus.Proofs.Numeral.Digits
Layer: Proofs
Purpose: Integers in decimal digits: a sign if they are negative, and digits without zeros in front.
Imports: Mathlib.Data.List.Basic
Trusted boundary: none
Main exports: isDigit_of_mem_digits, head?_digits_ne_zero, signChars, toList_toString
Open obligations: none
-/
import Mathlib.Data.List.Basic

namespace QuantityCalculus

variable {n : Nat} {c : Char}

theorem isDigit_of_mem_digits (h : c ∈ Nat.toDigits 10 n) : c.isDigit = true :=
  Nat.isDigit_of_mem_toDigits (by decide) (by decide) h

/-- The first digit of a positive number is not zero. -/
theorem head?_digits_ne_zero (pos : 0 < n) : (Nat.toDigits 10 n).head? ≠ some '0' := by
  induction n using Nat.base_induction 10 (by decide) with
  | single m small =>
    rw [Nat.toDigits_of_lt_base small, List.head?_singleton, ne_eq, Option.some.injEq,
      Nat.digitChar_eq_zero]
    exact Nat.ne_of_gt pos
  | digit m k hk hm ih =>
    rw [← Nat.toDigits_append_toDigits (by decide) hm hk,
      List.head?_append_of_ne_nil _ Nat.toDigits_ne_nil]
    exact ih hm

/-- The sign in front of an integer. -/
def signChars (i : Int) : List Char := if i < 0 then ['-'] else []

theorem mem_signChars {i : Int} : c ∈ signChars i ↔ i < 0 ∧ c = '-' := by
  rw [signChars]
  split
  next negative => simp [negative]
  next positive => simp [positive]

/-- An integer is written as its sign and the digits of its absolute value. -/
theorem toList_toString (i : Int) :
    (toString i).toList = signChars i ++ Nat.toDigits 10 i.natAbs := by
  cases i with
  | ofNat n => exact Nat.toList_repr
  | negSucc n =>
    have signed : toString (Int.negSucc n) = "-" ++ (n + 1).repr := rfl
    rw [signed, String.toList_append, Nat.toList_repr, signChars, if_pos (Int.negSucc_lt_zero n)]
    rfl

end QuantityCalculus
