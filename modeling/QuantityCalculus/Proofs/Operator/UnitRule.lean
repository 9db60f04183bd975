/-
Module: QuantityCalculus.Proofs.Operator.UnitRule
Layer: Proofs
Purpose: What the rules for units lead to, case by case, and how an operator finishes a calculation.
Imports: QuantityCalculus.Proofs.Units.Conversion, QuantityCalculus.Proofs.Units.Simplification,
  QuantityCalculus.Operator.Standard
Trusted boundary: none
Main exports: matchOperands_cases, matchOperands_isOk, multiplyOperands_ok, divideOperands_ok,
  dividend, divideOperands_isOk, convertTo_ok, apply_ok, apply_accepted, apply_rejected
Open obligations: none
-/
import QuantityCalculus.Proofs.Units.Conversion
import QuantityCalculus.Proofs.Units.Simplification
import QuantityCalculus.Operator.Standard

namespace QuantityCalculus

variable {α : Type} [Scalar α]

/-! ### Conversion -/

/-- A quantity that can be converted either has the unit already, or its number is multiplied by the
ratio of the two factors. -/
theorem Quantity.convertTo_ok {q converted : Quantity α} {target : CompoundUnit α}
    (h : q.convertTo target = .ok converted) :
    (q.unit.agrees target = true ∧ converted = q)
      ∨ (q.unit.dimension.agrees target.dimension = true
          ∧ converted = ⟨q.number * (q.unit.factor / target.factor), target, q.kind⟩) := by
  rw [Quantity.convertTo] at h
  split at h
  next same => exact .inl ⟨same, (Except.ok.inj h).symm⟩
  next =>
    rw [CompoundUnit.ratioTo] at h
    split at h
    next same => exact .inr ⟨same, (Except.ok.inj h).symm⟩
    next => cases h

/-- Units of agreeing dimensions can be converted. -/
theorem Quantity.convertTo_isOk {q : Quantity α} {target : CompoundUnit α}
    (same : q.unit.dimension.agrees target.dimension = true) :
    ∃ converted, q.convertTo target = .ok converted := by
  rw [Quantity.convertTo]
  split
  next => exact ⟨q, rfl⟩
  next =>
    rw [CompoundUnit.ratioTo, if_pos same]
    exact ⟨_, rfl⟩

/-! ### Rules for units -/

namespace UnitRule

/-- How two operands are matched. -/
theorem matchOperands_cases {l r : Operand α} {c : Calculation α} (h : matchOperands l r = .ok c) :
    (l.value.isDimensionless = true ∧ r.value.isDimensionless = true
        ∧ c = plainly l.value.scalarValue (some r.value.scalarValue) CompoundUnit.scalar)
      ∨ (l.value.isDimensionless = true ∧ r.value.isDimensionless = false
        ∧ c = plainly l.value.scalarValue (some r.value.number) r.value.unit)
      ∨ (l.value.isDimensionless = false ∧ r.value.isDimensionless = true
        ∧ c = plainly l.value.number (some r.value.scalarValue) l.value.unit)
      ∨ (l.value.isDimensionless = false ∧ r.value.isDimensionless = false
        ∧ ∃ converted, r.value.convertTo l.value.unit = .ok converted
          ∧ c = plainly l.value.number (some converted.number) l.value.unit) := by
  rw [matchOperands] at h
  split at h
  next left right => exact .inl ⟨left, right, (Except.ok.inj h).symm⟩
  next left right => exact .inr (.inl ⟨left, right, (Except.ok.inj h).symm⟩)
  next left right => exact .inr (.inr (.inl ⟨left, right, (Except.ok.inj h).symm⟩))
  next left right =>
    split at h
    next converted found =>
      exact .inr (.inr (.inr ⟨left, right, converted, found, (Except.ok.inj h).symm⟩))
    next => cases h

/-- Operands of agreeing dimensions can be matched, and so can any others of which one has no
dimension. -/
theorem matchOperands_isOk {l r : Operand α}
    (accepted : l.value.isDimensionless = true ∨ r.value.isDimensionless = true
      ∨ r.value.dimension.agrees l.value.dimension = true) :
    ∃ c, matchOperands l r = .ok c := by
  rw [matchOperands]
  split
  next => exact ⟨_, rfl⟩
  next => exact ⟨_, rfl⟩
  next => exact ⟨_, rfl⟩
  next left right =>
    rw [left, right] at accepted
    rcases accepted with impossible | impossible | same
    · cases impossible
    · cases impossible
    · obtain ⟨converted, found⟩ := Quantity.convertTo_isOk (q := r.value) same
      rw [found]
      exact ⟨_, rfl⟩

/-- The factors of a product and their units are multiplied as they are. -/
theorem multiplyOperands_ok {l r : Operand α} {c : Calculation α}
    (h : multiplyOperands l r = .ok c) :
    ∃ unit, l.value.unit.productWith r.value.unit = .ok unit
      ∧ c = plainly l.value.number (some r.value.number) unit := by
  rw [multiplyOperands] at h
  split at h
  next unit found => exact ⟨unit, found, (Except.ok.inj h).symm⟩
  next => cases h

/-- A quotient is formed of both operands as they are, or the dividend counts as a plain number. -/
theorem divideOperands_ok {l r : Operand α} {c : Calculation α} (h : divideOperands l r = .ok c) :
    (∃ unit, l.value.unit.quotientBy r.value.unit = .ok unit
        ∧ c = plainly l.value.number (some r.value.number) unit)
      ∨ (l.value.isDimensionless = true
        ∧ ∃ unit, CompoundUnit.scalar.quotientBy r.value.unit = .ok unit
          ∧ c = plainly l.value.scalarValue (some r.value.number) unit) := by
  rw [divideOperands] at h
  split at h
  next unit found =>
    by_cases reciprocal : (l.value.isDimensionless && !r.value.isDimensionless
        && !r.value.unit.isReciprocal) = true
    · rw [if_pos reciprocal] at h found
      rw [Bool.and_eq_true, Bool.and_eq_true] at reciprocal
      exact .inr ⟨reciprocal.1.1, unit, found, (Except.ok.inj h).symm⟩
    · rw [if_neg reciprocal] at h found
      exact .inl ⟨unit, found, (Except.ok.inj h).symm⟩
  next => cases h

/-- The unit that is divided.  There is none where the dividend counts as a plain number. -/
def dividend (l r : Quantity α) : CompoundUnit α :=
  if l.isDimensionless && !r.isDimensionless && !r.unit.isReciprocal then CompoundUnit.scalar
  else l.unit

/-- Operands are divided in the quotient of the dividend and the divisor, if there is one. -/
theorem divideOperands_isOk {l r : Operand α} {unit : CompoundUnit α}
    (divided : (dividend l.value r.value).quotientBy r.value.unit = .ok unit) :
    ∃ c, divideOperands l r = .ok c ∧ c.unit = unit := by
  rw [dividend] at divided
  rw [divideOperands, divided]
  exact ⟨_, rfl, rfl⟩

end UnitRule

/-! ### Operators -/

namespace Operator

/-- A result is preceded by a check that found nothing, and comes of a calculation. -/
theorem apply_ok {op : Operator α} {env : Environment α} {operands : Operands α} {q : Quantity α}
    (h : op.apply env operands = .ok q) :
    op.preflight.check env operands = []
      ∧ ∃ c, op.units.calculate env operands = .ok c ∧ q = op.finish env c := by
  rw [apply] at h
  split at h
  next accepted =>
    cases calculated : op.units.calculate env operands with
    | ok c =>
        rw [calculated] at h
        exact ⟨accepted, c, rfl, (Except.ok.inj h).symm⟩
    | error reports =>
        rw [calculated] at h
        cases h
  next => cases h

/-- What is accepted and calculated is the result. -/
theorem apply_accepted {op : Operator α} {env : Environment α} {operands : Operands α}
    {c : Calculation α} (accepted : op.preflight.check env operands = [])
    (calculated : op.units.calculate env operands = .ok c) :
    op.apply env operands = .ok (op.finish env c) := by
  rw [apply, accepted, calculated]
  rfl

theorem apply_rejected {op : Operator α} {env : Environment α} {operands : Operands α}
    {d : Diagnostic α} (rejected : op.preflight.check env operands = [d]) :
    op.apply env operands = .error [d] := by
  rw [apply, rejected]

/-- The unit of a result is simplified if the operator says so. -/
theorem finish_unit_simplified {op : Operator α} (simplifies : op.simplifies = true)
    (env : Environment α) (c : Calculation α) :
    (op.finish env c).unit = (env.units.simplify c.unit).unit := by
  rw [finish]
  dsimp only
  rw [if_pos simplifies]

end Operator

end QuantityCalculus
