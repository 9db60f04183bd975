/-
Module: QuantityCalculus.Proofs.Evaluation.Handling
Layer: Proofs
Purpose: What the handling of a single node may report: nothing if there is a value, and otherwise
  one error, or one for each of two operands.
Imports: QuantityCalculus.Proofs.Evaluation.Walk, QuantityCalculus.Proofs.Evaluation.SingleReport
Trusted boundary: none
Main exports: length_check_le, Operator.apply_atMostTwice, applyOperator_atMostTwice,
  Outcome.Single, handle_single
Open obligations: none
-/
import QuantityCalculus.Proofs.Evaluation.Walk
import QuantityCalculus.Proofs.Evaluation.SingleReport

namespace QuantityCalculus

variable {α : Type}

/-- A computation with at most two reports if it fails. -/
abbrev FailsAtMostTwice {β : Type} (result : Except (List (Diagnostic α)) β) : Prop :=
  FailsWith (fun reports => reports.length ≤ 2) result

theorem FailsOnce.atMostTwice {β : Type} {result : Except (List (Diagnostic α)) β}
    (h : FailsOnce result) : FailsAtMostTwice result := by
  refine FailsWith.mono h ?_
  intro reports one
  simp [one]

/-! ### Operators -/

section Operators

theorem Operands.length_toList_le (operands : Operands α) : operands.toList.length ≤ 2 := by
  obtain ⟨left, right⟩ := operands
  cases right <;> simp [toList]

variable [Scalar α]

namespace Preflight

theorem length_requireDimensionless_le (operands : List (Operand α)) :
    (requireDimensionless operands).length ≤ operands.length := by
  rw [requireDimensionless, List.length_map]
  exact List.length_filter_le _ _

/-- A check reports each of the two operands at most once. -/
theorem length_check_le (env : Environment α) (operands : Operands α) (p : Preflight) :
    (p.check env operands).length ≤ 2 := by
  have both := operands.length_toList_le
  induction p with
  | noUnits => exact Nat.le_trans (length_requireDimensionless_le _) both
  | percentAware =>
      have percentages := List.length_filter_le (fun o : Operand α => o.value.kind == .percent)
        operands.toList
      exact Nat.le_trans (length_requireDimensionless_le _) (Nat.le_trans percentages both)
  | nonZeroDivisor inner ih =>
      rw [check]
      split
      next => grind
      next => exact ih
  | _ => grind [check]

end Preflight

/-- No rule for units reports more than two errors. -/
theorem UnitRule.calculate_atMostTwice (env : Environment α) (operands : Operands α)
    (rule : UnitRule) : FailsAtMostTwice (rule.calculate env operands) := by
  by_cases complete : rule.needsRight = true → operands.right.isSome = true
  · exact (calculate_failsOnce env operands rule complete).atMostTwice
  · obtain ⟨needed, missing⟩ : rule.needsRight = true ∧ operands.right = none := by
      simpa using complete
    simp [calculate_missing env needed missing]

/-- An operator reports what its check does, or else what its rule for units does. -/
theorem Operator.apply_atMostTwice (op : Operator α) (env : Environment α)
    (operands : Operands α) : FailsAtMostTwice (op.apply env operands) := by
  rw [apply]
  split
  next => exact (op.units.calculate_atMostTwice env operands).map _
  next => exact failsWith_error.mpr (Preflight.length_check_le env operands op.preflight)

/-- No operator reports more than two errors. -/
theorem applyOperator_atMostTwice (s : Scope α) (preferences : Preferences) (symbol : String)
    (fixity : Fixity) (operands : Operands α) (span : Span) :
    FailsAtMostTwice (applyOperator s preferences symbol fixity operands span) := by
  rw [applyOperator]
  split
  next op _ => exact op.apply_atMostTwice _ _
  next => simp

end Operators

/-! ### Nodes -/

/-- The outcome of the handling of a single node: nothing is reported, or there is no value and at
most two reports. -/
def Outcome.Single (o : Outcome α) : Prop :=
  o.reports = [] ∨ o.value = none ∧ o.reports.length ≤ 2

namespace Outcome

theorem Single.length_le {o : Outcome α} (h : o.Single) : o.reports.length ≤ 2 := by
  rcases h with silent | ⟨-, few⟩
  · simp [silent]
  · exact few

theorem Single.silent {o : Outcome α} (h : o.Single) (valued : o.value.isSome = true) :
    o.reports = [] := by
  rcases h with silent | ⟨missing, -⟩
  · exact silent
  · simp [missing] at valued

theorem single_success (x : Quantity α) (s : Scope α) : (success x s).Single := .inl rfl

theorem single_failure {reports : List (Diagnostic α)} (few : reports.length ≤ 2) (s : Scope α) :
    (failure reports s).Single := .inr ⟨rfl, few⟩

theorem single_ofExcept {result : Except (List (Diagnostic α)) (Quantity α)}
    (few : FailsAtMostTwice result) (s : Scope α) : (ofExcept s result).Single := by
  cases result with
  | ok x => exact single_success x s
  | error reports => exact single_failure (failsWith_error.mp few) s

theorem single_withOne {f : Quantity α → Outcome α} (next : ∀ x, (f x).Single) (s : Scope α)
    (values : List (Quantity α)) : (withOne s values f).Single := by
  unfold withOne
  split
  next x => exact next x
  next => exact single_failure (by simp) s

theorem single_withTwo {f : Quantity α → Quantity α → Outcome α} (next : ∀ x y, (f x y).Single)
    (s : Scope α) (values : List (Quantity α)) : (withTwo s values f).Single := by
  unfold withTwo
  split
  next x y => exact next x y
  next => exact single_failure (by simp) s

end Outcome

/-- A definition reports at most one error, and has a value if it reports none. -/
theorem defineValue_single (s : Scope α) (name : String) (constant : Bool) (value : Quantity α)
    (span : Span) : (defineValue s name constant value span).Single := by
  rw [defineValue]
  split
  next => exact Outcome.single_success ..
  next => exact Outcome.single_failure (by simp) s
  next => exact Outcome.single_failure (by simp) s

/-- A node that has a value has nothing to report by itself, and one that has none has at most two
reports. -/
theorem handle_single [Scalar α] [Elementary α] (preferences : Preferences) (s : Scope α) (n : Node)
    (values : List (Quantity α)) : (n.handle preferences s values).Single := by
  cases n with
  | number literal span =>
      have few := (literalValue_failsOnce (α := α) span literal).atMostTwice
      exact Outcome.single_ofExcept (few.map Quantity.plain) s
  | measured literal literalSpan unit span =>
      rw [Node.handle]
      split
      next reports failed =>
        have few := (literalValue_failsOnce span literal).atMostTwice reports failed
        exact Outcome.single_failure few s
      next => exact Outcome.single_withOne (fun _ => Outcome.single_success ..) s values
  | identifier name span =>
      exact Outcome.single_ofExcept (identifierValue_failsOnce s name span).atMostTwice s
  | unitName name span =>
      exact Outcome.single_ofExcept (unitValue_failsOnce s name span).atMostTwice s
  | unparsed text span => exact Outcome.single_failure (by simp) s
  | binary symbol token left right span =>
      apply Outcome.single_withTwo
      intro x y
      exact Outcome.single_ofExcept (applyOperator_atMostTwice _ _ _ _ _ _) s
  | unary symbol fixity token operand span =>
      apply Outcome.single_withOne
      intro x
      exact Outcome.single_ofExcept (applyOperator_atMostTwice _ _ _ _ _ _) s
  | parenthesis inner span =>
      exact Outcome.single_withOne (fun _ => Outcome.single_success ..) s values
  | unitPower unit token exponent exponentSpan span =>
      apply Outcome.single_withOne
      intro base
      exact Outcome.single_ofExcept (unitPowerValue_failsOnce base exponent span).atMostTwice s
  | unitProduct operator token left right span =>
      apply Outcome.single_withTwo
      intro x y
      exact Outcome.single_ofExcept (unitProductValue_failsOnce operator x y span).atMostTwice s
  | definition name nameSpan constant value span =>
      exact Outcome.single_withOne (fun v => defineValue_single s name constant v span) s values
  | statement inner span =>
      exact Outcome.single_withOne (fun _ => Outcome.single_success ..) s values

end QuantityCalculus
