/-
Module: QuantityCalculus.Proofs.Scalar.Factorial
Layer: Proofs
Purpose: The multiplication of a factorial ends by itself.  The factor need not become smaller,
  since subtracting one may be lost in rounding; it is the product that at least doubles in every
  round, up to the first infinite one.
Imports: Mathlib, QuantityCalculus.Scalar.Factorial, QuantityCalculus.Proofs.Scalar.Rounding
Trusted boundary: none
Main exports: Scalar.Multiplied, Scalar.Multiplied.factorial_eq, Scalar.Multiplied.doubled,
  Scalar.Multiplied.rounds_le, Scalar.HasFactorial, Scalar.factorial_rounds_end
Open obligations: none
-/
import Mathlib
import QuantityCalculus.Scalar.Factorial
import QuantityCalculus.Proofs.Scalar.Rounding

namespace QuantityCalculus

namespace Scalar

section Rounds

variable {α : Type} [Scalar α]

/-- The product and the next factor after a number of rounds, for the factorial of `x`.  No bound is
set on the number of rounds, and a number without a factorial has none. -/
inductive Multiplied (x : α) : Nat → α → α → Prop
  | start (nonnegative : ¬x < 0) (integral : (toInt? x).isSome = true) : Multiplied x 0 1 x
  | round {rounds : Nat} {product factor : α} (before : Multiplied x rounds product factor)
      (due : factorDue product factor = true) :
      Multiplied x (rounds + 1) (product * factor) (factor - 1)

namespace Multiplied

variable {x product factor : α} {rounds : Nat}

theorem started (h : Multiplied x rounds product factor) : Multiplied x 0 1 x := by
  induction h with
  | start nonnegative integral => exact .start nonnegative integral
  | round _ _ ih => exact ih

/-- The multiplication with a bound takes the same rounds. -/
theorem multiplyDown_eq (h : Multiplied x rounds product factor) (spare : Nat) :
    multiplyDown (rounds + spare) 1 x = multiplyDown spare product factor := by
  induction h generalizing spare with
  | start => rw [Nat.zero_add]
  | @round rounds product factor _ due ih =>
      have step : multiplyDown (spare + 1) product factor
          = multiplyDown spare (product * factor) (factor - 1) := if_pos due
      rw [Nat.add_right_comm, Nat.add_assoc, ih, step]

/-- The product that is left when no factor is due is the factorial, if the bound allows for the
rounds up to there. -/
theorem factorial_eq (h : Multiplied x rounds product factor)
    (done : factorDue product factor = false)
    (enough : rounds ≤ maxFactorialRounds) : factorial x = product := by
  obtain ⟨spare, bound⟩ := Nat.exists_eq_add_of_le enough
  have stopped : multiplyDown spare product factor = product := by
    cases spare with
    | zero => rfl
    | succ spare => exact if_neg (Bool.eq_false_iff.mp done)
  cases h.started with
  | start nonnegative integral =>
      rw [factorial, if_neg nonnegative, Option.isNone_eq_false_iff.mpr integral,
        if_neg Bool.false_ne_true, bound, h.multiplyDown_eq, stopped]

/-- A number that is not multiplied has no factorial. -/
theorem factorial_eq_undefined (refused : ¬Multiplied x 0 1 x) : factorial x = undefined := by
  rw [factorial]
  by_cases negative : x < 0
  · rw [if_pos negative]
  · cases integral : (toInt? x).isSome with
    | true => exact absurd (.start negative integral) refused
    | false =>
        have fractional : toInt? x = none :=
          Option.not_isSome_iff_eq_none.mp (Bool.eq_false_iff.mp integral)
        rw [if_neg negative, fractional]
        rfl

/-- Rounds whose number is bounded come to an end. -/
theorem exists_not_due {bound : Nat} (start : Multiplied x 0 1 x)
    (bounded : ∀ rounds product factor, Multiplied x rounds product factor → rounds ≤ bound) :
    ∃ rounds product factor, Multiplied x rounds product factor
      ∧ factorDue product factor = false := by
  by_contra endless
  -- With a factor due after every round there is a next round, so every number of rounds is
  -- reached.
  have every (rounds : Nat) : ∃ product factor, Multiplied x rounds product factor := by
    induction rounds with
    | zero => exact ⟨1, x, start⟩
    | succ rounds ih =>
        obtain ⟨product, factor, before⟩ := ih
        cases due : factorDue product factor with
        | true => exact ⟨_, _, before.round due⟩
        | false => exact absurd ⟨rounds, product, factor, before, due⟩ endless
  obtain ⟨product, factor, beyond⟩ := every (bound + 1)
  exact Nat.not_succ_le_self bound (bounded _ _ _ beyond)

end Multiplied

end Rounds

section Double

open Binary64

variable {x product factor : Float} {rounds : Nat}

/-- A factor is due only for a product that is not infinite, and only if the factor is at least
two. -/
theorem factorDue_iff :
    factorDue product factor = true ↔ 1 + 1 ≤ factor ∧ isInfinity product = false := by
  rw [factorDue, Bool.and_eq_true, decide_eq_true_iff, Bool.not_eq_true']
  rfl

namespace Multiplied

/-- Every round at least doubles the product, until it is infinite. -/
theorem doubled (h : Multiplied x rounds product factor) :
    isInfinity product = true ∨ ∃ v, value? product = some v ∧ 2 ^ rounds ≤ v := by
  induction h with
  | start =>
      have one : value? 1 = some ((1 : Int) : Rat) := value?_eq_some_iff.mpr (by decide)
      exact .inr ⟨_, one, by norm_num⟩
  | @round rounds product factor _ due ih =>
      obtain ⟨two, finite⟩ := factorDue_iff.mp due
      rcases ih with infinite | ⟨v, value, power⟩
      · exact absurd infinite (Bool.eq_false_iff.mp finite)
      · have one : 1 ≤ v := (one_le_pow₀ one_le_two).trans power
        rcases twice_le_mul value one two with infinite | ⟨z, value, twice⟩
        · exact .inl infinite
        · refine .inr ⟨z, value, ?_⟩
          rw [pow_succ']
          exact (mul_le_mul_of_nonneg_left power two_pos.le).trans twice

/-- After 1024 rounds the product would exceed every finite number. -/
theorem rounds_le (h : Multiplied x rounds product factor) : rounds ≤ 1024 := by
  cases h with
  | start => exact Nat.zero_le _
  | round before due =>
      rcases before.doubled with infinite | ⟨v, value, power⟩
      · exact absurd infinite (Bool.eq_false_iff.mp (factorDue_iff.mp due).2)
      · exact (pow_lt_pow_iff_right₀ one_lt_two).mp (power.trans_lt (value?_lt value))

end Multiplied

/-- The numbers that have a factorial: the natural ones, and zero with either sign. -/
def HasFactorial (x : Float) : Prop := ∃ n : Nat, value? x = some (n : Rat)

/-- The multiplication is begun for these numbers and for no others. -/
theorem start_iff : Multiplied x 0 1 x ↔ HasFactorial x := by
  constructor
  · rintro ⟨nonnegative, integral⟩
    obtain ⟨i, integer⟩ := Option.isSome_iff_exists.mp integral
    have value : value? x = some (i : Rat) := value?_eq_some_iff.mpr integer
    have natural : 0 ≤ i := by
      by_contra negative
      exact nonnegative ((lt_zero_iff value).mpr (Int.cast_lt_zero.mpr (not_le.mp negative)))
    exact ⟨i.toNat, by rw [value, ← Int.cast_natCast, Int.toNat_of_nonneg natural]⟩
  · rintro ⟨n, value⟩
    have integer : toInt? x = some (n : Int) := value?_eq_some_iff.mp value
    refine .start (fun negative => ?_) (Option.isSome_iff_exists.mpr ⟨n, integer⟩)
    exact absurd ((lt_zero_iff value).mp negative) (Nat.cast_nonneg n).not_gt

/-- The rounds of a factorial come to an end by themselves after at most 1024 of them, and the
product that is left is the factorial.  A number that has none is not multiplied at all. -/
theorem factorial_rounds_end (x : Float) :
    (∀ rounds product factor, Multiplied x rounds product factor → rounds ≤ 1024)
      ∧ (HasFactorial x
          ∧ (∃ rounds product factor, Multiplied x rounds product factor
              ∧ factorDue product factor = false ∧ factorial x = product)
        ∨ ¬HasFactorial x
          ∧ (∀ rounds product factor, ¬Multiplied x rounds product factor)
          ∧ factorial x = undefined) := by
  have bounded : ∀ rounds product factor, Multiplied x rounds product factor → rounds ≤ 1024 :=
    fun _ _ _ h => h.rounds_le
  refine ⟨bounded, ?_⟩
  by_cases natural : HasFactorial x
  · obtain ⟨rounds, product, factor, h, done⟩ := (start_iff.mpr natural).exists_not_due bounded
    exact .inl ⟨natural, rounds, product, factor, h, done, h.factorial_eq done h.rounds_le⟩
  · have refused : ¬Multiplied x 0 1 x := fun start => natural (start_iff.mp start)
    exact .inr
      ⟨natural, fun _ _ _ h => refused h.started, Multiplied.factorial_eq_undefined refused⟩

/-- One is lost in rounding here, so that the factor stays as it is. -/
example : floatOfDecimal (2 ^ 60) 0 - 1 = floatOfDecimal (2 ^ 60) 0
    ∧ isInfinity (factorial (floatOfDecimal (2 ^ 60) 0)) = true := by decide

end Double

end Scalar

end QuantityCalculus
