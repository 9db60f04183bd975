/-
Module: QuantityCalculus.Proofs.Evaluation.SingleReport
Layer: Proofs
Purpose: Computations that report exactly one error if they fail: literals, names, units, and the
  rules for units, as long as these have the operands that they need.
Imports: QuantityCalculus.Evaluation.Evaluator
Trusted boundary: none
Main exports: FailsWith, FailsOnce, UnitRule.needsRight, UnitRule.calculate_missing,
  UnitRule.calculate_failsOnce, literalValue_failsOnce, identifierValue_failsOnce,
  unitValue_failsOnce, unitPowerValue_failsOnce, unitProductValue_failsOnce
Open obligations: none
-/
import QuantityCalculus.Evaluation.Evaluator

namespace QuantityCalculus

variable {α : Type}

/-! ### Computations that fail -/

section Failing

variable {β γ : Type} {P Q : List (Diagnostic α) → Prop}

/-- A computation whose reports, if it fails, have some property. -/
def FailsWith (P : List (Diagnostic α) → Prop) (result : Except (List (Diagnostic α)) β) : Prop :=
  ∀ reports, result = .error reports → P reports

@[simp] theorem failsWith_ok (x : β) : FailsWith P (.ok x) := by
  intro reports h
  cases h

@[simp] theorem failsWith_error {reports : List (Diagnostic α)} :
    FailsWith P (.error reports : Except (List (Diagnostic α)) β) ↔ P reports := by
  simp [FailsWith]

theorem FailsWith.map {result : Except (List (Diagnostic α)) β} (h : FailsWith P result)
    (f : β → γ) : FailsWith P (result.map f) := by
  cases result with
  | ok x => exact failsWith_ok _
  | error reports => exact failsWith_error.mpr (failsWith_error.mp h)

theorem FailsWith.mono {result : Except (List (Diagnostic α)) β} (h : FailsWith P result)
    (weaker : ∀ reports, P reports → Q reports) : FailsWith Q result := by
  intro reports failed
  exact weaker reports (h reports failed)

/-- A computation with exactly one report if it fails. -/
abbrev FailsOnce (result : Except (List (Diagnostic α)) β) : Prop :=
  FailsWith (fun reports => reports.length = 1) result

end Failing

/-! ### Rules for units -/

namespace UnitRule

@[simp] theorem length_failure (e : UnitError α) (primary : Operand α)
    (secondary : Option (Operand α)) : (failure e primary secondary).length = 1 := rfl

/-- Whether a rule for units has no result for a single operand. -/
def needsRight : UnitRule → Bool
  | .matching | .matchingScalar | .productUnit | .quotientUnit | .powerUnit | .percentOf
  | .conversion => true
  | .rootUnit | .sameUnit | .scalarUnit | .toRadians | .fromRadians => false

variable [Scalar α]

/-- Operands that do not match are reported once. -/
theorem matchOperands_failsOnce (left right : Operand α) :
    FailsOnce (matchOperands left right) := by
  rw [matchOperands]
  split
  next => exact failsWith_ok _
  next => exact failsWith_ok _
  next => exact failsWith_ok _
  next => split <;> simp

theorem multiplyOperands_failsOnce (left right : Operand α) :
    FailsOnce (multiplyOperands left right) := by
  rw [multiplyOperands]
  split <;> simp

theorem divideOperands_failsOnce (left right : Operand α) :
    FailsOnce (divideOperands left right) := by
  rw [divideOperands]
  split <;> simp

theorem raiseOperand_failsOnce (base exponent : Operand α) :
    FailsOnce (raiseOperand base exponent) := by
  rw [raiseOperand]
  split
  next => exact failsWith_ok _
  next => split <;> simp

theorem rootOperand_failsOnce (operand : Operand α) : FailsOnce (rootOperand operand) := by
  rw [rootOperand]
  split
  next => exact failsWith_ok _
  next => split <;> simp

/-- Without the operand that it needs, a rule for units has neither a result nor a report. -/
theorem calculate_missing (env : Environment α) {operands : Operands α} {rule : UnitRule}
    (needed : rule.needsRight = true) (missing : operands.right = none) :
    rule.calculate env operands = .error [] := by
  cases rule <;> simp_all [needsRight, calculate]

/-- A rule for units that has no result reports why, unless it misses an operand. -/
theorem calculate_failsOnce (env : Environment α) (operands : Operands α) (rule : UnitRule)
    (complete : rule.needsRight = true → operands.right.isSome = true) :
    FailsOnce (rule.calculate env operands) := by
  obtain ⟨left, right⟩ := operands
  cases right with
  | none =>
      cases rule with
      | rootUnit => exact rootOperand_failsOnce left
      | sameUnit => exact failsWith_ok _
      | scalarUnit => exact failsWith_ok _
      | toRadians => exact failsWith_ok _
      | fromRadians =>
          rw [calculate]
          dsimp only
          split <;> simp
      | _ => exact absurd (complete rfl) Bool.false_ne_true
  | some right =>
      cases rule with
      | matching => exact matchOperands_failsOnce left right
      | matchingScalar => exact (matchOperands_failsOnce left right).map _
      | productUnit => exact multiplyOperands_failsOnce left right
      | quotientUnit => exact divideOperands_failsOnce left right
      | powerUnit => exact raiseOperand_failsOnce left right
      | rootUnit => exact rootOperand_failsOnce left
      | sameUnit => exact failsWith_ok _
      | scalarUnit => exact failsWith_ok _
      | percentOf => exact failsWith_ok _
      | toRadians => exact failsWith_ok _
      | fromRadians =>
          rw [calculate]
          dsimp only
          split <;> simp
      | conversion =>
          rw [calculate]
          dsimp only
          split <;> simp

end UnitRule

/-! ### Leaves and units -/

section Values

@[simp] theorem length_reportAt (span : Span) (e : EvaluationError α) :
    (reportAt span e).length = 1 := rfl

variable [Scalar α]

theorem literalValue_failsOnce (span : Span) (literal : String) :
    FailsOnce (literalValue span literal : Except (List (Diagnostic α)) α) := by
  rw [literalValue]
  split <;> simp

/-- An unknown name is reported once. -/
theorem identifierValue_failsOnce (s : Scope α) (name : String) (span : Span) :
    FailsOnce (identifierValue s name span) := by
  rw [identifierValue]
  split
  next => exact failsWith_ok _
  next =>
    split
    next => exact failsWith_ok _
    next => split <;> simp

theorem unitValue_failsOnce (s : Scope α) (name : String) (span : Span) :
    FailsOnce (unitValue s name span) := by
  rw [unitValue]
  split <;> simp

/-- A power that cannot be formed is reported once. -/
theorem unitPowerValue_failsOnce [Elementary α] (base : Quantity α) (exponent : String)
    (span : Span) : FailsOnce (unitPowerValue base exponent span) := by
  rw [unitPowerValue]
  split
  next reports failed =>
    exact failsWith_error.mpr (literalValue_failsOnce span exponent reports failed)
  next => split <;> simp

theorem unitProductValue_failsOnce (operator : UnitOperator) (left right : Quantity α)
    (span : Span) : FailsOnce (unitProductValue operator left right span) := by
  unfold unitProductValue
  dsimp only
  split <;> simp

end Values

end QuantityCalculus
