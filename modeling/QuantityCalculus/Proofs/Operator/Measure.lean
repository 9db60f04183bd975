/-
Module: QuantityCalculus.Proofs.Operator.Measure
Layer: Proofs
Purpose: In exact arithmetic, the standard operators compute with what quantities measure, that is
  with their numbers of primitive units, whatever the units are that they are written in.
Imports: QuantityCalculus.Proofs.Operator.Dimension, QuantityCalculus.Proofs.Units.Factor
Trusted boundary: none
Main exports: Quantity.measure, Quantity.convertTo_measure, Measurable, matchOperands_measure,
  standardOperators_measure
Open obligations: none
-/
import QuantityCalculus.Proofs.Operator.Dimension
import QuantityCalculus.Proofs.Units.Factor

namespace QuantityCalculus

open Product (weigh)

/-- The number of primitive units that a quantity amounts to. -/
def Quantity.measure (q : Quantity Rat) : Rat := q.number * q.unit.factor

/-- The number that a quantity counts as is its measure. -/
theorem Quantity.scalarValue_eq_measure (q : Quantity Rat) : q.scalarValue = q.measure := by
  rw [Quantity.scalarValue, Quantity.measure]
  by_cases isScalar : q.unit.isScalar = true
  · have unit : q.unit = CompoundUnit.scalar := congrArg Product.mk (List.isEmpty_iff.mp isScalar)
    rw [if_pos isScalar, unit, CompoundUnit.factor_scalar, mul_one]
  · rw [if_neg isScalar]

/-- A conversion keeps what is measured, in a unit that measures as much as the one asked for. -/
theorem Quantity.convertTo_measure {us : List (NamedUnit Rat)} (oneDefinition : OneDefinition us)
    (positive : ∀ v ∈ us, v.HasPositiveFactor) {q converted : Quantity Rat}
    {target : CompoundUnit Rat} (canonical : Product.Canonical q.unit)
    (canonicalTarget : Product.Canonical target) (inside : CompoundUnit.parts q.unit ⊆ us)
    (insideTarget : CompoundUnit.parts target ⊆ us) (found : q.convertTo target = .ok converted) :
    converted.measure = q.measure ∧ converted.unit.factor = target.factor := by
  rcases Quantity.convertTo_ok found with ⟨agrees, rfl⟩ | ⟨-, rfl⟩
  · exact ⟨rfl, factor_eq_of_agrees oneDefinition positive canonical canonicalTarget inside
      insideTarget agrees⟩
  · have nonzero : target.factor ≠ 0 :=
      (CompoundUnit.factor_pos fun v hv => positive v (insideTarget hv)).ne'
    refine ⟨?_, rfl⟩
    rw [Quantity.measure, Quantity.measure, mul_assoc, div_mul_cancel₀ _ nonzero]

/-- Two operands in range whose units are products as the calculus builds them, of derived units
that are positive multiples of their definitions. -/
structure Measurable (us : List (NamedUnit Rat)) (a b : Operand Rat) : Prop
    extends InRange us a.value.unit b.value.unit where
  leftCanonical : Product.Canonical a.value.unit
  rightCanonical : Product.Canonical b.value.unit
  positive : ∀ v ∈ us, v.HasPositiveFactor

/-- Simplification keeps what a calculation measures, up to the tolerance with which a unit is
recognized. -/
theorem finish_measure {us : List (NamedUnit Rat)} (oneDefinition : OneDefinition us)
    (positive : ∀ v ∈ us, v.HasPositiveFactor) {op : Operator Rat}
    (simplifies : op.simplifies = true)
    {function : Rat → Rat → Rat} (kernel : op.kernel = .binary function) (env : Environment Rat)
    (x y : Rat) {unit : CompoundUnit Rat} (inside : CompoundUnit.parts unit ⊆ us)
    (bound : unit.magnitude < 2147483648) :
    Close (op.finish env (UnitRule.plainly x (some y) unit)).measure
      (function x y * unit.factor) := by
  have number : op.kernel.apply x (some y) * (1 : Rat) = function x y := by
    rw [kernel, mul_one]
    rfl
  have close := simplify_close oneDefinition positive env.units inside bound
    (op.kernel.apply x (some y) * (1 : Rat))
  rw [Operator.finish]
  dsimp only
  rw [if_pos simplifies, ← number]
  exact close

namespace Measurable

variable {us : List (NamedUnit Rat)} {a b : Operand Rat} (h : Measurable us a b)
  {env : Environment Rat} {op : Operator Rat} {q : Quantity Rat}

include h

/-- A combined unit has the product or the quotient of the factors, and is still in range. -/
theorem combined_factor {sign : Int} {fs : List (Factor (NamedUnit Rat))}
    (combined : Product.Combines sign a.value.unit b.value.unit fs) :
    CompoundUnit.factor (Product.ofFactors fs) = a.value.unit.factor * b.value.unit.factor ^ sign
      ∧ CompoundUnit.parts (Product.ofFactors fs) ⊆ us
      ∧ CompoundUnit.magnitude (Product.ofFactors fs) < 2147483648 := by
  have inside := CompoundUnit.combines_parts combined h.left h.right
  have light : weigh (fun _ => 1) fs < 2147483648 :=
    (combined.weigh fun _ => 1).trans_lt h.written
  refine ⟨?_, ?_, ?_⟩
  · rw [factor_ofFactors h.oneDefinition h.positive inside light]
    exact combines_factorProduct h.oneDefinition h.positive combined h.left h.right
  · exact CompoundUnit.parts_ofFactors_subset inside
  · exact (Product.weigh_ofFactors_le (fun _ => 1) fs).trans_lt light

/-- The left operand may count as a plain number. -/
theorem withoutUnit : Measurable us ⟨a.span, Quantity.plain a.value.scalarValue⟩ b where
  toInRange := h.toInRange.withoutUnit
  leftCanonical := Product.canonical_unity
  rightCanonical := h.rightCanonical
  positive := h.positive

/-- Where two operands have the same dimension, both are matched into one unit of it. -/
theorem matchOperands_measure (same : a.value.unit.SameDimension b.value.unit)
    {c : Calculation Rat} (matched : UnitRule.matchOperands a b = .ok c) :
    ∃ x y unit, c = UnitRule.plainly x (some y) unit ∧ CompoundUnit.parts unit ⊆ us
      ∧ unit.magnitude < 2147483648 ∧ x * unit.factor = a.value.measure
      ∧ y * unit.factor = b.value.measure := by
  have written := h.written
  have dimensions : a.value.isDimensionless = b.value.isDimensionless := by
    rw [Bool.eq_iff_iff, Quantity.isDimensionless, Quantity.isDimensionless, h.leftDimensionless,
      h.rightDimensionless]
    constructor
    · intro none name
      rw [← same name, none name]
    · intro none name
      rw [same name, none name]
  rcases UnitRule.matchOperands_cases matched with ⟨-, -, rfl⟩ | ⟨left, right, -⟩
    | ⟨left, right, -⟩ | ⟨-, -, converted, found, rfl⟩
  · refine ⟨_, _, CompoundUnit.scalar, rfl, List.nil_subset us, Nat.succ_pos _, ?_, ?_⟩
    · rw [CompoundUnit.factor_scalar, mul_one, Quantity.scalarValue_eq_measure]
    · rw [CompoundUnit.factor_scalar, mul_one, Quantity.scalarValue_eq_measure]
  · rw [left, right] at dimensions
    cases dimensions
  · rw [left, right] at dimensions
    cases dimensions
  · obtain ⟨measures, factors⟩ := Quantity.convertTo_measure h.oneDefinition h.positive
      h.rightCanonical h.leftCanonical h.right h.left found
    refine ⟨_, _, a.value.unit, rfl, h.left, by omega, rfl, ?_⟩
    rw [← factors]
    exact measures

/-- The measure of a product is the product of the measures, up to the tolerance. -/
theorem multiplication_measure
    (applied : StandardOperators.multiplication.apply env ⟨a, some b⟩ = .ok q) :
    Close q.measure (a.value.measure * b.value.measure) := by
  obtain ⟨-, c, calculated, rfl⟩ := Operator.apply_ok applied
  obtain ⟨unit, multiplied, rfl⟩ := UnitRule.multiplyOperands_ok calculated
  obtain ⟨fs, rfl, combined⟩ := CompoundUnit.productWith_spec multiplied
  obtain ⟨factor, inside, bound⟩ := h.combined_factor combined
  have close := finish_measure h.oneDefinition h.positive
    (rfl : (StandardOperators.multiplication : Operator Rat).simplifies = true) rfl env
    a.value.number b.value.number inside bound
  have measure : a.value.number * b.value.number * CompoundUnit.factor (Product.ofFactors fs)
      = a.value.measure * b.value.measure := by
    rw [factor, zpow_one, Quantity.measure, Quantity.measure]
    ring
  rw [← measure]
  exact close

/-- The measure of a quotient is the quotient of the measures, up to the tolerance. -/
theorem division_measure
    (applied : StandardOperators.division.apply env ⟨a, some b⟩ = .ok q) :
    Close q.measure (a.value.measure / b.value.measure) := by
  obtain ⟨-, c, calculated, rfl⟩ := Operator.apply_ok applied
  rcases UnitRule.divideOperands_ok calculated with ⟨unit, divided, rfl⟩ | ⟨-, unit, divided, rfl⟩
  · obtain ⟨fs, rfl, combined⟩ := CompoundUnit.quotientBy_spec divided
    obtain ⟨factor, inside, bound⟩ := h.combined_factor combined
    have close := finish_measure h.oneDefinition h.positive
      (rfl : (StandardOperators.division : Operator Rat).simplifies = true) rfl env
      a.value.number b.value.number inside bound
    have measure : a.value.number / b.value.number * CompoundUnit.factor (Product.ofFactors fs)
        = a.value.measure / b.value.measure := by
      rw [factor, zpow_neg_one, ← div_eq_mul_inv, Quantity.measure, Quantity.measure,
        div_mul_div_comm]
    rw [← measure]
    exact close
  · obtain ⟨fs, rfl, combined⟩ := CompoundUnit.quotientBy_spec divided
    obtain ⟨factor, inside, bound⟩ := h.withoutUnit.combined_factor combined
    have close := finish_measure h.oneDefinition h.positive
      (rfl : (StandardOperators.division : Operator Rat).simplifies = true) rfl env
      a.value.scalarValue b.value.number inside bound
    have none : (Quantity.plain a.value.scalarValue).unit.factor = 1 := CompoundUnit.factor_scalar
    have measure : a.value.scalarValue / b.value.number * CompoundUnit.factor (Product.ofFactors fs)
        = a.value.measure / b.value.measure := by
      rw [factor, none, one_mul, zpow_neg_one, ← div_eq_mul_inv, Quantity.scalarValue_eq_measure,
        Quantity.measure, Quantity.measure, div_div]
    rw [← measure]
    exact close

/-- An operator on matched operands computes with what they measure, if its kernel may be applied
before or after a multiplication. -/
theorem matching_measure (same : a.value.unit.SameDimension b.value.unit)
    (units : op.units = .matching) (simplifies : op.simplifies = true)
    {function : Rat → Rat → Rat} (kernel : op.kernel = .binary function)
    (linear : ∀ x y k, function x y * k = function (x * k) (y * k))
    (applied : op.apply env ⟨a, some b⟩ = .ok q) :
    Close q.measure (function a.value.measure b.value.measure) := by
  obtain ⟨-, c, calculated, rfl⟩ := Operator.apply_ok applied
  rw [units] at calculated
  obtain ⟨x, y, unit, rfl, inside, bound, left, right⟩ := h.matchOperands_measure same calculated
  have close := finish_measure h.oneDefinition h.positive simplifies kernel env x y inside bound
  rw [linear, left, right] at close
  exact close

/-- A conversion keeps what is measured. -/
theorem conversion_measure
    (applied : StandardOperators.conversion.apply env ⟨a, some b⟩ = .ok q) :
    q.measure = a.value.measure := by
  obtain ⟨-, c, calculated, rfl⟩ := Operator.apply_ok applied
  cases found : a.value.convertTo b.value.unit with
  | error e =>
      rw [StandardOperators.conversion, UnitRule.calculate] at calculated
      dsimp only at calculated
      rw [found] at calculated
      cases calculated
  | ok converted =>
      rw [StandardOperators.conversion, UnitRule.calculate] at calculated
      dsimp only at calculated
      rw [found] at calculated
      cases calculated
      change converted.number * 1 * converted.unit.factor = a.value.measure
      rw [mul_one]
      exact (Quantity.convertTo_measure h.oneDefinition h.positive h.leftCanonical h.rightCanonical
        h.left h.right found).1

end Measurable

/-- In exact arithmetic, what the standard operators return measures the product, the quotient, the
sum or the difference of what the operands measure, up to the tolerance with which a unit is
recognized.  A conversion is exact. -/
theorem standardOperators_measure (env : Environment Rat) {a b : Operand Rat}
    (leftCanonical : Product.Canonical a.value.unit)
    (rightCanonical : Product.Canonical b.value.unit)
    (oneDefinition :
      OneDefinition (CompoundUnit.parts a.value.unit ++ CompoundUnit.parts b.value.unit))
    (positive : ∀ v ∈ CompoundUnit.parts a.value.unit ++ CompoundUnit.parts b.value.unit,
      v.HasPositiveFactor)
    (written : a.value.unit.magnitude + b.value.unit.magnitude < 2147483648)
    (expanded : a.value.unit.extent + b.value.unit.extent < 2147483648) :
    (∀ q, StandardOperators.multiplication.apply env ⟨a, some b⟩ = .ok q →
        Close q.measure (a.value.measure * b.value.measure))
      ∧ (∀ q, StandardOperators.division.apply env ⟨a, some b⟩ = .ok q →
        Close q.measure (a.value.measure / b.value.measure))
      ∧ (a.value.unit.SameDimension b.value.unit →
        (∀ q, StandardOperators.addition.apply env ⟨a, some b⟩ = .ok q →
            Close q.measure (a.value.measure + b.value.measure))
          ∧ ∀ q, StandardOperators.subtraction.apply env ⟨a, some b⟩ = .ok q →
            Close q.measure (a.value.measure - b.value.measure))
      ∧ ∀ q, StandardOperators.conversion.apply env ⟨a, some b⟩ = .ok q →
        q.measure = a.value.measure := by
  have measurable : Measurable
      (CompoundUnit.parts a.value.unit ++ CompoundUnit.parts b.value.unit) a b :=
    { oneDefinition := oneDefinition
      left := List.subset_append_left _ _
      right := List.subset_append_right _ _
      written := written
      expanded := expanded
      leftCanonical := leftCanonical
      rightCanonical := rightCanonical
      positive := positive }
  refine ⟨?_, ?_, ?_, ?_⟩
  · intro q applied
    exact measurable.multiplication_measure applied
  · intro q applied
    exact measurable.division_measure applied
  · intro same
    constructor
    · intro q applied
      exact measurable.matching_measure same rfl rfl rfl add_mul applied
    · intro q applied
      exact measurable.matching_measure same rfl rfl rfl sub_mul applied
  · intro q applied
    exact measurable.conversion_measure applied

theorem hasPositiveFactor_of_lengths {us : List (NamedUnit Rat)}
    (known : ∀ v ∈ us, v = metre ∨ v = kilometre) : ∀ v ∈ us, v.HasPositiveFactor := by
  intro v hv
  rcases known v hv with rfl | rfl
  · trivial
  · change (0 : Rat) < ((1 : Nat) : Rat) * (10 : Rat) ^ (3 : Int)
    norm_num

/-- Three kilometres by two metres measure what the two lengths measure, multiplied. -/
theorem distance_by_stride_measure :
    let a : Operand Rat := distance
    let b : Operand Rat := stride
    ∃ q, StandardOperators.multiplication.apply ⟨none, none, UnitRegistry.empty⟩ ⟨a, some b⟩ = .ok q
      ∧ Close q.measure (a.value.measure * b.value.measure) := by
  intro a b
  have known : ∀ v ∈ CompoundUnit.parts (distance : Operand Rat).value.unit
      ++ CompoundUnit.parts (stride : Operand Rat).value.unit, v = metre ∨ v = kilometre := by
    intro v hv
    have listed : CompoundUnit.parts (distance : Operand Rat).value.unit
        ++ CompoundUnit.parts (stride : Operand Rat).value.unit = [kilometre, metre, metre] := rfl
    rw [listed] at hv
    simp only [List.mem_cons, List.not_mem_nil, or_false] at hv
    tauto
  exact ⟨_, rfl, (standardOperators_measure _ (Product.canonical_ofFactors _)
    (Product.canonical_ofFactors _) (oneDefinition_of_lengths known)
    (hasPositiveFactor_of_lengths known) (by decide) (by decide)).1 _ rfl⟩

end QuantityCalculus
