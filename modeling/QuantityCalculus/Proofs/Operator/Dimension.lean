/-
Module: QuantityCalculus.Proofs.Operator.Dimension
Layer: Proofs
Purpose: The standard operators on two numbers respect dimensions: they reject the operands that do
  not fit together and no others, and the dimension of what they return follows from the definitions
  of the units of their operands, unless exponents stop at their bounds when the factors of a
  calculated unit are merged.
Imports: QuantityCalculus.Proofs.Operator.UnitRule, QuantityCalculus.Proofs.Scope.Declaration,
  QuantityCalculus.Proofs.Units.SimplifiedDimension, QuantityCalculus.Evaluation.Evaluator
Trusted boundary: none
Main exports: CompoundUnit.HasNoDimension, CompoundUnit.SameDimension, CompoundUnit.Clashes,
  CompoundUnit.common, CompoundUnit.numerator, Rejected, Judged, Quantity.HasExponents, InRange,
  applyOperator_respects_dimensions
Open obligations: none
-/
import QuantityCalculus.Proofs.Operator.UnitRule
import QuantityCalculus.Proofs.Scope.Declaration
import QuantityCalculus.Proofs.Units.SimplifiedDimension
import QuantityCalculus.Evaluation.Evaluator

namespace QuantityCalculus

variable {α : Type}

/-! ### Dimensions that follow from definitions -/

namespace CompoundUnit

/-- No base dimension is left once all definitions of a unit are multiplied out. -/
def HasNoDimension (u : CompoundUnit α) : Prop := ∀ name, u.trueExponent name = 0

/-- The definitions of both units come to the same dimension. -/
def SameDimension (u v : CompoundUnit α) : Prop := ∀ name, u.trueExponent name = v.trueExponent name

/-- Both units have a dimension, but not the same one. -/
def Clashes (u v : CompoundUnit α) : Prop :=
  ¬u.HasNoDimension ∧ ¬v.HasNoDimension ∧ ¬u.SameDimension v

open Classical in
/-- The unit in which two units are matched: the first one, the second one if the first has no
dimension, and no unit if neither has one. -/
noncomputable def common (u v : CompoundUnit α) : CompoundUnit α :=
  if u.HasNoDimension then if v.HasNoDimension then scalar else v else u

open Classical in
/-- What a unit counts as when it is divided by another one.  A unit without a dimension counts as
no unit there, unless the other one has none either or is written as a pure reciprocal. -/
noncomputable def numerator (u v : CompoundUnit α) : CompoundUnit α :=
  if u.HasNoDimension ∧ ¬v.HasNoDimension ∧ v.isReciprocal = false then scalar else u

/-- What is divided has the exponents of the dividend, also where it counts as a plain number. -/
theorem trueExponent_numerator (u v : CompoundUnit α) (name : String) :
    (u.numerator v).trueExponent name = u.trueExponent name := by
  rw [numerator]
  split
  next reciprocal => exact (reciprocal.1 name).symm
  next => rfl

end CompoundUnit

/-- Nothing was computed, and a single error of a given code was reported. -/
def Rejected (code : String) (result : Except (List (Diagnostic α)) (Quantity α)) : Prop :=
  ∃ d, result = .error [d] ∧ d.error.code = code

/-- What becomes of an operation: it is rejected if the dimensions of the operands do not fit, then
if the divisor is zero, and in all other cases it succeeds with a quantity of a given property. -/
structure Judged (result : Except (List (Diagnostic α)) (Quantity α)) (mismatch zeroDivisor : Prop)
    (answers : Quantity α → Prop) : Prop where
  mismatched : mismatch → Rejected "DIMENSION_MISMATCH" result
  divided : ¬mismatch → zeroDivisor → Rejected "DIVIDE_BY_ZERO" result
  succeeded : ¬mismatch → ¬zeroDivisor → ∃ q, result = .ok q ∧ answers q

/-! ### Units whose definitions stay in range -/

/-- A unit of given parts whose exponents stay in range, both as they are written and when they are
multiplied out. -/
structure CompoundUnit.Bounded (us : List (NamedUnit α)) (u : CompoundUnit α) : Prop where
  inside : CompoundUnit.parts u ⊆ us
  written : u.magnitude < 2147483648
  expanded : u.extent < 2147483648

theorem CompoundUnit.bounded_scalar {us : List (NamedUnit α)} :
    CompoundUnit.Bounded us (CompoundUnit.scalar : CompoundUnit α) where
  inside := List.nil_subset us
  written := Nat.succ_pos _
  expanded := Nat.succ_pos _

/-- Two units that give each name one definition, and whose exponents together stay in range, both
as they are written and when they are multiplied out. -/
structure InRange (us : List (NamedUnit α)) (u v : CompoundUnit α) : Prop where
  oneDefinition : OneDefinition us
  left : CompoundUnit.parts u ⊆ us
  right : CompoundUnit.parts v ⊆ us
  written : u.magnitude + v.magnitude < 2147483648
  expanded : u.extent + v.extent < 2147483648

namespace InRange

section Bounds

variable {us : List (NamedUnit α)} {u v : CompoundUnit α} (h : InRange us u v)

include h

theorem leftBounded : u.Bounded us where
  inside := h.left
  written := (Nat.le_add_right _ _).trans_lt h.written
  expanded := (Nat.le_add_right _ _).trans_lt h.expanded

theorem rightBounded : v.Bounded us where
  inside := h.right
  written := (Nat.le_add_left _ _).trans_lt h.written
  expanded := (Nat.le_add_left _ _).trans_lt h.expanded

/-- The unit that two quantities are brought to is bounded if both of their units are. -/
theorem common_bounded : (u.common v).Bounded us := by
  rw [CompoundUnit.common]
  split
  next =>
    split
    next => exact CompoundUnit.bounded_scalar
    next => exact h.rightBounded
  next => exact h.leftBounded

/-- The left unit may be left out. -/
theorem withoutUnit : InRange us CompoundUnit.scalar v where
  oneDefinition := h.oneDefinition
  left := CompoundUnit.bounded_scalar.inside
  right := h.right
  written := by
    have none : (CompoundUnit.scalar : CompoundUnit α).magnitude = 0 := rfl
    rw [none, Nat.zero_add]
    exact h.rightBounded.written
  expanded := by
    have none : (CompoundUnit.scalar : CompoundUnit α).extent = 0 := rfl
    rw [none, Nat.zero_add]
    exact h.rightBounded.expanded

theorem withNumerator : InRange us (u.numerator v) v := by
  rw [CompoundUnit.numerator]
  split
  next => exact h.withoutUnit
  next => exact h

/-- The unit that two units are combined to is in range like them. -/
theorem combined_bounded {sign : Int} {fs : List (Factor (NamedUnit α))}
    (combined : Product.Combines sign u v fs) :
    CompoundUnit.Bounded us (Product.ofFactors fs) := by
  have parts := CompoundUnit.combines_parts combined h.left h.right
  have shorter := CompoundUnit.combines_extent_le h.oneDefinition combined h.left h.right
  have shorterMerged := CompoundUnit.extent_ofFactors_le h.oneDefinition parts
  exact ⟨CompoundUnit.parts_ofFactors_subset parts,
    (CompoundUnit.combines_magnitude_le combined).trans_lt h.written,
    (shorterMerged.trans shorter).trans_lt h.expanded⟩

end Bounds

end InRange

variable [Scalar α]

/-- The dimension of a quantity has given exponents. -/
def Quantity.HasExponents (exponent : String → Int) (q : Quantity α) : Prop :=
  ∀ name, q.unit.dimensionExponent name = exponent name

/-- An operation is judged by its check and by what it calculates. -/
theorem Operator.judged_apply {op : Operator α} {env : Environment α} {operands : Operands α}
    {mismatch zeroDivisor : Prop} {answers : Quantity α → Prop}
    (mismatched : mismatch → ∃ d, op.preflight.check env operands = [d]
      ∧ d.error.code = "DIMENSION_MISMATCH")
    (divided : ¬mismatch → zeroDivisor → ∃ d, op.preflight.check env operands = [d]
      ∧ d.error.code = "DIVIDE_BY_ZERO")
    (accepted : ¬mismatch → ¬zeroDivisor → op.preflight.check env operands = [])
    (calculated : ¬mismatch → ¬zeroDivisor → ∃ c, op.units.calculate env operands = .ok c
      ∧ answers (op.finish env c)) :
    Judged (op.apply env operands) mismatch zeroDivisor answers := by
  constructor
  · intro h
    obtain ⟨d, rejected, code⟩ := mismatched h
    exact ⟨d, Operator.apply_rejected rejected, code⟩
  · intro fits h
    obtain ⟨d, rejected, code⟩ := divided fits h
    exact ⟨d, Operator.apply_rejected rejected, code⟩
  · intro fits nonzero
    obtain ⟨c, found, answered⟩ := calculated fits nonzero
    exact ⟨op.finish env c, Operator.apply_accepted (accepted fits nonzero) found, answered⟩

/-- A registry whose units are, at whatever depth, among given ones. -/
structure UnitRegistry.Within (us : List (NamedUnit α)) (r : UnitRegistry α) : Prop where
  wellFormed : r.WellFormed
  registered : r.parts ⊆ us

/-! ### Exact exponents -/

theorem CompoundUnit.Bounded.exact {us : List (NamedUnit α)} {u : CompoundUnit α}
    (bounded : u.Bounded us) (oneDefinition : OneDefinition us) (name : String) :
    u.dimensionExponent name = u.trueExponent name :=
  CompoundUnit.dimensionExponent_eq (oneDefinition.mono bounded.inside) bounded.expanded name

namespace InRange

section Units

variable {us : List (NamedUnit α)} {u v : CompoundUnit α} (h : InRange us u v)

include h

theorem leftExact (name : String) : u.dimensionExponent name = u.trueExponent name :=
  h.leftBounded.exact h.oneDefinition name

theorem rightExact (name : String) : v.dimensionExponent name = v.trueExponent name :=
  h.rightBounded.exact h.oneDefinition name

theorem leftDimensionless : u.isDimensionless = true ↔ u.HasNoDimension := by
  rw [CompoundUnit.isDimensionless_iff]
  simp only [h.leftExact, CompoundUnit.HasNoDimension]

theorem rightDimensionless : v.isDimensionless = true ↔ v.HasNoDimension := by
  rw [CompoundUnit.isDimensionless_iff]
  simp only [h.rightExact, CompoundUnit.HasNoDimension]

theorem agrees : u.dimension.agrees v.dimension = true ↔ u.SameDimension v := by
  rw [CompoundUnit.dimension_agrees_iff]
  simp only [h.leftExact, h.rightExact, CompoundUnit.SameDimension]

theorem agrees_symm : v.dimension.agrees u.dimension = true ↔ u.SameDimension v := by
  rw [CompoundUnit.dimension_agrees_iff]
  simp only [h.leftExact, h.rightExact, CompoundUnit.SameDimension, eq_comm]

/-- Units that are multiplied or divided have the sum or the difference of their exponents. -/
theorem combined_exponent {sign : Int} {fs : List (Factor (NamedUnit α))}
    (combined : Product.Combines sign u v fs) (name : String) :
    CompoundUnit.dimensionExponent (Product.ofFactors fs) name
      = u.trueExponent name + sign * v.trueExponent name := by
  rw [CompoundUnit.combines_dimension_of_extent h.oneDefinition combined h.left h.right h.written
    h.expanded, h.leftExact, h.rightExact]

end Units

/-! ### Checks -/

section Operands

variable {us : List (NamedUnit α)} {env : Environment α} {a b : Operand α}
  (h : InRange us a.value.unit b.value.unit)

include h

/-- Units that clash are reported before anything is computed. -/
theorem check_matchingUnits_mismatch (clash : a.value.unit.Clashes b.value.unit) :
    ∃ d, Preflight.check env ⟨a, some b⟩ .matchingUnits = [d]
      ∧ d.error.code = "DIMENSION_MISMATCH" := by
  obtain ⟨left, right, different⟩ := clash
  rw [← h.leftDimensionless] at left
  rw [← h.rightDimensionless] at right
  rw [← h.agrees] at different
  refine ⟨Preflight.mismatch a.value.dimension b (some a), ?_, rfl⟩
  simp [Preflight.check, Quantity.isDimensionless, Quantity.dimension, left, right, different]

/-- Units that do not clash are accepted. -/
theorem check_matchingUnits_accepted (fits : ¬a.value.unit.Clashes b.value.unit) :
    Preflight.check env ⟨a, some b⟩ .matchingUnits = [] := by
  rw [CompoundUnit.Clashes, ← h.leftDimensionless, ← h.rightDimensionless, ← h.agrees] at fits
  rw [Preflight.check]
  dsimp only
  apply if_pos
  rw [Bool.or_eq_true, Bool.or_eq_true]
  simp only [Quantity.isDimensionless, Quantity.dimension]
  tauto

/-- Different dimensions are reported before anything is converted. -/
theorem check_sameDimension_mismatch (different : ¬a.value.unit.SameDimension b.value.unit) :
    ∃ d, Preflight.check env ⟨a, some b⟩ .sameDimension = [d]
      ∧ d.error.code = "DIMENSION_MISMATCH" := by
  rw [← h.agrees] at different
  refine ⟨Preflight.mismatch b.value.dimension a (some b), ?_, rfl⟩
  simp [Preflight.check, Quantity.dimension, different]

theorem check_sameDimension_accepted (same : a.value.unit.SameDimension b.value.unit) :
    Preflight.check env ⟨a, some b⟩ .sameDimension = [] := by
  rw [← h.agrees] at same
  rw [Preflight.check]
  exact if_pos same

omit h in
/-- A divisor that is zero is reported, if there is nothing else to report. -/
theorem check_nonZeroDivisor_zero {inner : Preflight}
    (accepted : Preflight.check env ⟨a, some b⟩ inner = []) (zero : b.value.isZero = true) :
    ∃ d, Preflight.check env ⟨a, some b⟩ (.nonZeroDivisor inner) = [d]
      ∧ d.error.code = "DIVIDE_BY_ZERO" := by
  refine ⟨⟨.divideByZero, b.span, none⟩, ?_, rfl⟩
  rw [Preflight.check, accepted]
  exact if_pos zero

omit h in
theorem check_nonZeroDivisor_accepted {inner : Preflight}
    (accepted : Preflight.check env ⟨a, some b⟩ inner = []) (nonzero : ¬b.value.isZero = true) :
    Preflight.check env ⟨a, some b⟩ (.nonZeroDivisor inner) = [] := by
  rw [Preflight.check, accepted]
  exact if_neg nonzero

omit h in
theorem check_nonZeroDivisor_mismatch {inner : Preflight} {d : Diagnostic α}
    (rejected : Preflight.check env ⟨a, some b⟩ inner = [d]) :
    Preflight.check env ⟨a, some b⟩ (.nonZeroDivisor inner) = [d] := by
  rw [Preflight.check, rejected]

/-! ### Calculations -/

/-- The simplified form of a calculated unit has its dimension, if its factors are merged in
range. -/
theorem finish_hasExponents (within : env.units.Within us) {op : Operator α}
    (simplifies : op.simplifies = true) {c : Calculation α} (bounded : c.unit.Bounded us)
    {exponent : String → Int} (calculated : ∀ name, c.unit.dimensionExponent name = exponent name)
    (merges : c.unit.MergesInRange) : (op.finish env c).HasExponents exponent := by
  intro name
  rw [Operator.finish_unit_simplified simplifies,
    simplify_dimensionExponent_of_mergesInRange h.oneDefinition within.wellFormed.indexed
      within.registered bounded.inside bounded.written bounded.expanded merges,
    calculated]

/-- Operands that fit together are matched in their common unit. -/
theorem matchOperands_fitting (fits : ¬a.value.unit.Clashes b.value.unit) :
    ∃ c, UnitRule.matchOperands a b = .ok c ∧ c.unit = a.value.unit.common b.value.unit := by
  have left : a.value.isDimensionless = true ↔ a.value.unit.HasNoDimension := h.leftDimensionless
  have right : b.value.isDimensionless = true ↔ b.value.unit.HasNoDimension := h.rightDimensionless
  have accepted : a.value.isDimensionless = true ∨ b.value.isDimensionless = true
      ∨ b.value.dimension.agrees a.value.dimension = true := by
    rw [left, right, Quantity.dimension, Quantity.dimension, h.agrees_symm]
    rw [CompoundUnit.Clashes] at fits
    tauto
  obtain ⟨c, matched⟩ := UnitRule.matchOperands_isOk accepted
  refine ⟨c, matched, ?_⟩
  rw [CompoundUnit.common, ← left, ← right]
  rcases UnitRule.matchOperands_cases matched with ⟨none, none', rfl⟩ | ⟨none, some, rfl⟩
    | ⟨some, none, rfl⟩ | ⟨some, some', converted, -, rfl⟩
  · rw [if_pos none, if_pos none']
    rfl
  · rw [if_pos none, if_neg (by rw [some]; exact Bool.false_ne_true)]
    rfl
  · rw [if_neg (by rw [some]; exact Bool.false_ne_true)]
    rfl
  · rw [if_neg (by rw [some]; exact Bool.false_ne_true)]
    rfl

/-- The result on operands that fit together has the dimension of their common unit. -/
theorem matched_answers (within : env.units.Within us) {op : Operator α}
    (units : op.units = .matching) (simplifies : op.simplifies = true)
    (fits : ¬a.value.unit.Clashes b.value.unit) :
    ∃ c, op.units.calculate env ⟨a, some b⟩ = .ok c
      ∧ ((a.value.unit.common b.value.unit).MergesInRange →
        (op.finish env c).HasExponents (a.value.unit.common b.value.unit).trueExponent) := by
  obtain ⟨c, matched, unit⟩ := h.matchOperands_fitting fits
  refine ⟨c, by rw [units]; exact matched, fun merges => ?_⟩
  rw [← unit] at merges ⊢
  have bounded : c.unit.Bounded us := by
    rw [unit]
    exact h.common_bounded
  exact h.finish_hasExponents within simplifies bounded (bounded.exact h.oneDefinition) merges

/-! ### Operators -/

/-- Sums and differences: the operands must not clash, and the result has the dimension of their
common unit. -/
theorem judged_matching (within : env.units.Within us) {op : Operator α}
    (preflight : op.preflight = .matchingUnits)
    (units : op.units = .matching) (simplifies : op.simplifies = true) :
    Judged (op.apply env ⟨a, some b⟩) (a.value.unit.Clashes b.value.unit) False fun q =>
      (a.value.unit.common b.value.unit).MergesInRange →
        q.HasExponents (a.value.unit.common b.value.unit).trueExponent := by
  apply Operator.judged_apply
  · intro clash
    rw [preflight]
    exact h.check_matchingUnits_mismatch clash
  · intro _ impossible
    exact impossible.elim
  · intro fits _
    rw [preflight]
    exact h.check_matchingUnits_accepted fits
  · intro fits _
    exact h.matched_answers within units simplifies fits

/-- Remainders are like sums, but the divisor must not be zero. -/
theorem judged_modulus (within : env.units.Within us) {op : Operator α}
    (preflight : op.preflight = .nonZeroDivisor .matchingUnits)
    (units : op.units = .matching) (simplifies : op.simplifies = true) :
    Judged (op.apply env ⟨a, some b⟩) (a.value.unit.Clashes b.value.unit) (b.value.isZero = true)
      fun q => (a.value.unit.common b.value.unit).MergesInRange →
        q.HasExponents (a.value.unit.common b.value.unit).trueExponent := by
  apply Operator.judged_apply
  · intro clash
    obtain ⟨d, rejected, code⟩ := h.check_matchingUnits_mismatch clash
    rw [preflight]
    exact ⟨d, check_nonZeroDivisor_mismatch rejected, code⟩
  · intro fits zero
    rw [preflight]
    exact check_nonZeroDivisor_zero (h.check_matchingUnits_accepted fits) zero
  · intro fits nonzero
    rw [preflight]
    exact check_nonZeroDivisor_accepted (h.check_matchingUnits_accepted fits) nonzero
  · intro fits _
    exact h.matched_answers within units simplifies fits

/-- Comparisons reject what sums reject, and their results are plain numbers. -/
theorem judged_comparison {op : Operator α} (preflight : op.preflight = .matchingUnits)
    (units : op.units = .matchingScalar) (simplifies : op.simplifies = true) :
    Judged (op.apply env ⟨a, some b⟩) (a.value.unit.Clashes b.value.unit) False
      (Quantity.HasExponents fun _ => 0) := by
  apply Operator.judged_apply
  · intro clash
    rw [preflight]
    exact h.check_matchingUnits_mismatch clash
  · intro _ impossible
    exact impossible.elim
  · intro fits _
    rw [preflight]
    exact h.check_matchingUnits_accepted fits
  · intro fits _
    obtain ⟨c, matched, -⟩ := h.matchOperands_fitting fits
    refine ⟨{ c with unit := CompoundUnit.scalar }, ?_, fun name => ?_⟩
    · rw [units, UnitRule.calculate]
      dsimp only
      rw [matched]
      rfl
    · rw [Operator.finish_unit_simplified simplifies]
      rfl

/-- Products are never rejected, and the exponents add up. -/
theorem judged_product (within : env.units.Within us) {op : Operator α}
    (preflight : op.preflight = .noCheck)
    (units : op.units = .productUnit) (simplifies : op.simplifies = true) :
    Judged (op.apply env ⟨a, some b⟩) False False fun q =>
      ∃ w, a.value.unit.productWith b.value.unit = .ok w
        ∧ (w.MergesInRange → q.HasExponents fun name =>
          a.value.unit.trueExponent name + b.value.unit.trueExponent name) := by
  apply Operator.judged_apply
  · intro impossible
    exact impossible.elim
  · intro _ impossible
    exact impossible.elim
  · intro _ _
    rw [preflight, Preflight.check]
  · intro _ _
    obtain ⟨w, multiplied⟩ := CompoundUnit.productWith_isOk h.written
    obtain ⟨fs, rfl, combined⟩ := CompoundUnit.productWith_spec multiplied
    refine ⟨UnitRule.plainly a.value.number (some b.value.number) (Product.ofFactors fs), ?_,
      Product.ofFactors fs, multiplied, ?_⟩
    · rw [units, UnitRule.calculate]
      dsimp only
      rw [UnitRule.multiplyOperands, multiplied]
    · intro merges
      refine h.finish_hasExponents within simplifies (h.combined_bounded combined) (fun name => ?_)
        merges
      rw [UnitRule.plainly, h.combined_exponent combined, one_mul]

/-- The unit of a quotient is that of the dividend, which may count as a plain number, by that of
the divisor. -/
theorem dividend_eq : UnitRule.dividend a.value b.value = a.value.unit.numerator b.value.unit := by
  have left : a.value.isDimensionless = true ↔ a.value.unit.HasNoDimension := h.leftDimensionless
  have right : b.value.isDimensionless = true ↔ b.value.unit.HasNoDimension := h.rightDimensionless
  rw [UnitRule.dividend, CompoundUnit.numerator, ← left, ← right]
  congr 1
  simp [and_assoc]

/-- Quotients are rejected only if the divisor is zero, and the exponents are subtracted. -/
theorem judged_quotient (within : env.units.Within us) {op : Operator α}
    (preflight : op.preflight = .nonZeroDivisor .noCheck)
    (units : op.units = .quotientUnit) (simplifies : op.simplifies = true) :
    Judged (op.apply env ⟨a, some b⟩) False (b.value.isZero = true) fun q =>
      ∃ w, (a.value.unit.numerator b.value.unit).quotientBy b.value.unit = .ok w
        ∧ (w.MergesInRange → q.HasExponents fun name =>
          a.value.unit.trueExponent name - b.value.unit.trueExponent name) := by
  have noCheck : Preflight.check env ⟨a, some b⟩ .noCheck = [] := by rw [Preflight.check]
  apply Operator.judged_apply
  · intro impossible
    exact impossible.elim
  · intro _ zero
    rw [preflight]
    exact check_nonZeroDivisor_zero noCheck zero
  · intro _ nonzero
    rw [preflight]
    exact check_nonZeroDivisor_accepted noCheck nonzero
  · intro _ _
    have inRange := h.withNumerator
    obtain ⟨w, divided⟩ := CompoundUnit.quotientBy_isOk inRange.written
    obtain ⟨c, calculated, unit⟩ := UnitRule.divideOperands_isOk (h.dividend_eq ▸ divided)
    obtain ⟨fs, rfl, combined⟩ := CompoundUnit.quotientBy_spec divided
    refine ⟨c, by rw [units]; exact calculated, Product.ofFactors fs, divided, fun merges => ?_⟩
    rw [← unit] at merges
    have bounded : c.unit.Bounded us := by
      rw [unit]
      exact inRange.combined_bounded combined
    refine h.finish_hasExponents within simplifies bounded (fun name => ?_) merges
    rw [unit, inRange.combined_exponent combined, CompoundUnit.trueExponent_numerator, neg_one_mul,
      ← sub_eq_add_neg]

/-- A conversion rejects units of different dimensions, and has the dimension of the unit that it is
made into. -/
theorem judged_conversion {op : Operator α} (preflight : op.preflight = .sameDimension)
    (units : op.units = .conversion) (simplifies : op.simplifies = false) :
    Judged (op.apply env ⟨a, some b⟩) (¬a.value.unit.SameDimension b.value.unit) False
      (Quantity.HasExponents b.value.unit.trueExponent) := by
  apply Operator.judged_apply
  · intro different
    rw [preflight]
    exact h.check_sameDimension_mismatch different
  · intro _ impossible
    exact impossible.elim
  · intro same _
    rw [preflight]
    exact h.check_sameDimension_accepted (not_not.mp same)
  · intro same _
    have agrees := h.agrees.mpr (not_not.mp same)
    obtain ⟨converted, found⟩ := Quantity.convertTo_isOk (q := a.value) agrees
    refine ⟨UnitRule.plainly converted.number none converted.unit, ?_, fun name => ?_⟩
    · rw [units, UnitRule.calculate]
      dsimp only
      rw [found]
    · have unit : (op.finish env
          (UnitRule.plainly converted.number none converted.unit)).unit = converted.unit := by
        rw [Operator.finish]
        dsimp only
        rw [simplifies]
        rfl
      rw [unit]
      rcases Quantity.convertTo_ok found with ⟨-, rfl⟩ | ⟨-, rfl⟩
      · rw [h.leftExact]
        exact not_not.mp same name
      · exact h.rightExact name

end Operands

end InRange

/-! ### Operators in a scope -/

section Scope

variable [Elementary α]

/-- All units that occur in the registered units and in two operands, at whatever depth. -/
def Scope.partsWith (s : Scope α) (a b : Operand α) : List (NamedUnit α) :=
  s.units.parts ++ (CompoundUnit.parts a.value.unit ++ CompoundUnit.parts b.value.unit)

theorem OperandKind.ofValueKind_eq_number {kind : ValueKind} (h : kind ≠ .percent) :
    OperandKind.ofValueKind kind = .number := by
  cases kind with
  | number => rfl
  | percent => exact absurd rfl h
  | angle => rfl

/-- An operator symbol stands for the standard operator on plain numbers and quantities. -/
theorem applyOperator_eq_apply {s : Scope α} (operators : s.operators = OperatorTable.standard)
    {a b : Operand α} (aKind : a.value.kind ≠ .percent) (bKind : b.value.kind ≠ .percent)
    {symbol : String} {op : Operator α}
    (resolved : OperatorTable.standard.resolve? symbol (.binary .number .number) = some op)
    (preferences : Preferences) (span : Span) :
    applyOperator s preferences symbol .leading ⟨a, some b⟩ span
      = op.apply (s.environment preferences) ⟨a, some b⟩ := by
  have signature : (⟨a, some b⟩ : Operands α).signature .leading = .binary .number .number := by
    rw [Operands.signature, OperandKind.ofValueKind_eq_number aKind]
    exact congrArg (Signature.binary .number) (OperandKind.ofValueKind_eq_number bKind)
  rw [applyOperator, operators, signature, resolved]

/-- Whatever has been declared, the standard operators on two numbers or angles reject the operands
whose dimensions do not fit, and divisors that are zero, with a single report, and no others.  The
dimension of the result follows from the definitions of the units: always for comparisons and
conversions, and where the factors of the calculated unit are merged in range for operators whose
results are simplified. -/
theorem applyOperator_respects_dimensions (declarations : List (Declaration α))
    (preferences : Preferences) (span : Span) {a b : Operand α}
    (aKind : a.value.kind ≠ .percent) (bKind : b.value.kind ≠ .percent)
    (oneDefinition : OneDefinition ((Scope.standard.declareAll declarations).partsWith a b))
    (written : a.value.unit.magnitude + b.value.unit.magnitude < 2147483648)
    (expanded : a.value.unit.extent + b.value.unit.extent < 2147483648) :
    let s : Scope α := Scope.standard.declareAll declarations
    let u := a.value.unit
    let v := b.value.unit
    let matched : Quantity α → Prop := fun q =>
      (u.common v).MergesInRange → q.HasExponents (u.common v).trueExponent
    let run := fun symbol => applyOperator s preferences symbol .leading ⟨a, some b⟩ span
    (∀ symbol ∈ ["+", "-"], Judged (run symbol) (u.Clashes v) False matched)
      ∧ (∀ symbol ∈ ["<", "<=", ">", ">=", "==", "!="],
          Judged (run symbol) (u.Clashes v) False (Quantity.HasExponents fun _ => 0))
      ∧ Judged (run "mod") (u.Clashes v) (b.value.isZero = true) matched
      ∧ Judged (run "*") False False (fun q => ∃ w, u.productWith v = .ok w
          ∧ (w.MergesInRange →
            q.HasExponents fun name => u.trueExponent name + v.trueExponent name))
      ∧ Judged (run "/") False (b.value.isZero = true)
          (fun q => ∃ w, (u.numerator v).quotientBy v = .ok w
            ∧ (w.MergesInRange →
              q.HasExponents fun name => u.trueExponent name - v.trueExponent name))
      ∧ Judged (run "in") (¬u.SameDimension v) False (Quantity.HasExponents v.trueExponent) := by
  intro s u v matched run
  have operators : s.operators = OperatorTable.standard := Scope.declareAll_operators _ _
  have within : s.units.Within (s.partsWith a b) :=
    { wellFormed := Scope.declareAll_wellFormed UnitRegistry.wellFormed_empty declarations
      registered := List.subset_append_left _ _ }
  have inRange : InRange (s.partsWith a b) a.value.unit b.value.unit :=
    { oneDefinition := oneDefinition
      left := List.Subset.trans (List.subset_append_left _ _) (List.subset_append_right _ _)
      right := List.Subset.trans (List.subset_append_right _ _) (List.subset_append_right _ _)
      written := written
      expanded := expanded }
  have applied : ∀ symbol op,
      OperatorTable.standard.resolve? symbol (.binary .number .number) = some op →
      run symbol = op.apply (s.environment preferences) ⟨a, some b⟩ :=
    fun symbol op resolved =>
      applyOperator_eq_apply operators aKind bKind resolved preferences span
  refine ⟨?_, ?_, ?_, ?_, ?_, ?_⟩
  · intro symbol listed
    fin_cases listed
    · rw [applied "+" StandardOperators.addition rfl]
      exact inRange.judged_matching within rfl rfl rfl
    · rw [applied "-" StandardOperators.subtraction rfl]
      exact inRange.judged_matching within rfl rfl rfl
  · intro symbol listed
    fin_cases listed
    · rw [applied "<" (StandardOperators.comparison "<" fun x y => x < y) rfl]
      exact inRange.judged_comparison rfl rfl rfl
    · rw [applied "<=" (StandardOperators.comparison "<=" fun x y => x ≤ y) rfl]
      exact inRange.judged_comparison rfl rfl rfl
    · rw [applied ">" (StandardOperators.comparison ">" fun x y => y < x) rfl]
      exact inRange.judged_comparison rfl rfl rfl
    · rw [applied ">=" (StandardOperators.comparison ">=" fun x y => y ≤ x) rfl]
      exact inRange.judged_comparison rfl rfl rfl
    · rw [applied "==" (StandardOperators.comparison "==" fun x y => x == y) rfl]
      exact inRange.judged_comparison rfl rfl rfl
    · rw [applied "!=" (StandardOperators.comparison "!=" fun x y => !(x == y)) rfl]
      exact inRange.judged_comparison rfl rfl rfl
  · rw [applied "mod" StandardOperators.modulus rfl]
    exact inRange.judged_modulus within rfl rfl rfl
  · rw [applied "*" StandardOperators.multiplication rfl]
    exact inRange.judged_product within rfl rfl rfl
  · rw [applied "/" StandardOperators.division rfl]
    exact inRange.judged_quotient within rfl rfl rfl
  · rw [applied "in" StandardOperators.conversion rfl]
    exact inRange.judged_conversion rfl rfl rfl

end Scope

/-! ### Kilometres by metres -/

section Lengths

omit [Scalar α] in
def metre : NamedUnit α := .primitive (.ofSymbol "m") "Length"

def kilometre : NamedUnit α :=
  .derived (.ofSymbol "km") (Scalar.ofDecimal 1 3) (CompoundUnit.ofNamed metre)

/-- Metres and kilometres have one definition each. -/
theorem oneDefinition_of_lengths {us : List (NamedUnit α)}
    (known : ∀ v ∈ us, v = metre ∨ v = kilometre) : OneDefinition us := by
  have symbols : ([metre, kilometre].map (NamedUnit.symbol : NamedUnit α → String)).Nodup := by
    change ["m", "km"].Nodup
    decide
  exact OneDefinition.of_symbols symbols fun v hv => by simpa using known v hv

def lengthDeclarations : List (Declaration α) :=
  [.primitiveUnit "m" "Length" ⟨none, []⟩,
    .derivedUnit "km" (Quantity.of (Scalar.ofDecimal 1 3) (CompoundUnit.ofNamed metre)) ⟨none, []⟩]

/-- Three kilometres. -/
def distance : Operand α :=
  ⟨⟨0, 4⟩, Quantity.of (Scalar.ofDecimal 3 0) (CompoundUnit.ofNamed kilometre)⟩

/-- Two metres. -/
def stride : Operand α := ⟨⟨7, 10⟩, Quantity.of (Scalar.ofDecimal 2 0) (CompoundUnit.ofNamed metre)⟩

end Lengths

theorem lengths_oneDefinition :
    OneDefinition ((Scope.standard.declareAll lengthDeclarations : Scope Float).partsWith
      distance stride) := by
  have listed :
      (Scope.standard.declareAll lengthDeclarations : Scope Float).partsWith distance stride
      = [metre, kilometre, metre, kilometre, metre, metre] := rfl
  apply oneDefinition_of_lengths
  intro v hv
  rw [listed] at hv
  simp only [List.mem_cons, List.not_mem_nil, or_false] at hv
  tauto

/-- Kilometres may be divided by metres, unless there are none of these. -/
theorem distance_by_stride_respects_dimensions :
    let s : Scope Float := Scope.standard.declareAll lengthDeclarations
    let a : Operand Float := distance
    let b : Operand Float := stride
    let u := a.value.unit
    let v := b.value.unit
    OneDefinition (s.partsWith a b)
      ∧ Judged (applyOperator s Preferences.standard "/" .leading ⟨a, some b⟩ ⟨0, 10⟩)
          False (b.value.isZero = true)
          (fun q => ∃ w, (u.numerator v).quotientBy v = .ok w
            ∧ (w.MergesInRange →
              q.HasExponents fun name => u.trueExponent name - v.trueExponent name)) :=
  ⟨lengths_oneDefinition,
    (applyOperator_respects_dimensions lengthDeclarations Preferences.standard ⟨0, 10⟩
      (by decide) (by decide) lengths_oneDefinition (by decide) (by decide)).2.2.2.2.1⟩

/-! ### Strips by paces -/

section Strips

def stripDeclarations : List (Declaration Float) :=
  [.primitiveUnit "ft" "Length" ⟨none, []⟩,
    .derivedUnit "strip"
      (Quantity.of 1 ⟨[⟨foot, Exponent.clamp 2⟩, ⟨ell, Exponent.minusOne⟩]⟩) ⟨none, []⟩,
    .derivedUnit "pace" (Quantity.of 1 (CompoundUnit.ofNamed foot)) ⟨none, []⟩]

def oneStrip : Operand Float := ⟨⟨0, 7⟩, Quantity.of 1 (CompoundUnit.ofNamed strip)⟩

/-- A high power of the pace. -/
def manyPaces : Operand Float :=
  ⟨⟨10, 27⟩, Quantity.of 1 ⟨[⟨pace, ⟨1200000000, by decide, by decide⟩⟩]⟩⟩

theorem strips_oneDefinition :
    OneDefinition ((Scope.standard.declareAll stripDeclarations).partsWith oneStrip manyPaces) := by
  have symbols : ([strip, foot, ell, pace].map NamedUnit.symbol).Nodup := by decide
  have listed : (Scope.standard.declareAll stripDeclarations).partsWith oneStrip manyPaces
      = [foot, strip, foot, ell, pace, foot, strip, foot, ell, pace, foot] := rfl
  refine OneDefinition.of_symbols symbols ?_
  rw [listed]
  simp

/-- A strip is multiplied by a high power of the pace.  The paces are merged into strips, the
exponent of the foot stops at its bound, and the result has another dimension than the definitions
come to. -/
theorem strip_times_paces_changes_dimension :
    let s : Scope Float := Scope.standard.declareAll stripDeclarations
    let a := oneStrip
    let b := manyPaces
    let u := a.value.unit
    let v := b.value.unit
    let result := applyOperator s Preferences.standard "*" .leading ⟨a, some b⟩ ⟨0, 27⟩
    a.value.kind ≠ .percent ∧ b.value.kind ≠ .percent ∧ OneDefinition (s.partsWith a b)
      ∧ u.magnitude + v.magnitude < 2147483648 ∧ u.extent + v.extent < 2147483648
      ∧ u.trueExponent "Length" + v.trueExponent "Length" = 1200000001
      ∧ (∃ q, result = .ok q ∧ q.unit.dimensionExponent "Length" = 947483646)
      ∧ ¬Judged result False False
          (Quantity.HasExponents fun name => u.trueExponent name + v.trueExponent name) := by
  intro s a b u v result
  have exponents : u.trueExponent "Length" + v.trueExponent "Length" = 1200000001 := by decide
  have applied : result
      = StandardOperators.multiplication.apply (s.environment Preferences.standard) ⟨a, some b⟩ :=
    applyOperator_eq_apply (Scope.declareAll_operators _ _) (by decide) (by decide) rfl _ _
  have answered : ∃ q, result = .ok q ∧ q.unit.dimensionExponent "Length" = 947483646 := by
    let product := stripBy ⟨1200000000, by decide, by decide⟩
    refine ⟨_, applied.trans (Operator.apply_accepted
      (c := UnitRule.plainly a.value.number (some b.value.number) product) rfl rfl), ?_⟩
    rw [Operator.finish_unit_simplified rfl]
    decide +kernel
  refine ⟨by decide, by decide, strips_oneDefinition, by decide, by decide, exponents, answered, ?_⟩
  intro judged
  obtain ⟨q, found, stopped⟩ := answered
  obtain ⟨q', found', exact⟩ := judged.succeeded not_false not_false
  obtain rfl : q = q' := Except.ok.inj (found.symm.trans found')
  have equal : (1200000001 : Int) = 947483646 :=
    exponents.symm.trans ((exact "Length").symm.trans stopped)
  exact absurd equal (by decide)

end Strips

end QuantityCalculus
