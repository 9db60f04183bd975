/-
Module: QuantityCalculus.Proofs.Evaluation.Overflow
Layer: Proofs
Purpose: A product or a quotient that is not reported has the exact dimension, where what the
  factors of the units contribute to it stays in the range of an exponent.  Beyond that range it may
  stop at the bound without a report.
Imports: QuantityCalculus.Proofs.Evaluation.Registered, QuantityCalculus.Proofs.Evaluation.Reports,
  QuantityCalculus.Proofs.Operator.Dimension
Trusted boundary: none
Main exports: UnitRegistry.simplify_combined_exponent, Fits, ReportedOrExact,
  evaluate_reported_or_exact
Open obligations: none
-/
import QuantityCalculus.Proofs.Evaluation.Registered
import QuantityCalculus.Proofs.Evaluation.Reports
import QuantityCalculus.Proofs.Operator.Dimension

namespace QuantityCalculus

open Product (Combines weigh)

variable {α : Type} [Scalar α]

/-! ### Units -/

section Units

variable {sign : Int} {u v w : CompoundUnit α} {fs : List (Factor (NamedUnit α))}

/-- No name occurs twice in combined factors, so nothing is lost when they are merged. -/
theorem CompoundUnit.weigh_combined (canonical : Product.Canonical u)
    (combined : Combines sign u v fs)
    (name : String) :
    weigh (fun b => (b.dimensionExponent name).natAbs) fs
      = CompoundUnit.load (Product.ofFactors fs) name := by
  rw [CompoundUnit.load, Product.ofFactors_of_nodup (combined.nodup canonical.nodup)]
  exact (Product.weigh_filter (fun b => (b.dimensionExponent name).natAbs) fs).symm

variable {r : UnitRegistry α} (wf : r.WellFormed) (closed : r.Closed)

include wf closed

/-- To simplify a unit changes no exponent that stays in range. -/
theorem UnitRegistry.simplify_exponent (built : r.Builds u) {name : String}
    (light : u.load name < 2147483648) :
    (r.simplify u).unit.dimensionExponent name = u.dimensionExponent name := by
  have inside : CompoundUnit.parts u ⊆ r.parts := wf.indexed.parts_of_builds built
  exact simplify_dimension (closed.oneDefinition wf) wf.indexed (List.Subset.refl _) inside
    ((closed.onePrimitive wf).mono inside) light

/-- To simplify a product or a quotient changes no exponent that stays in range, on either side and
in the combined unit. -/
theorem UnitRegistry.simplify_combined_exponent (hu : r.Builds u) (hv : r.Builds v)
    (unit : w = Product.ofFactors fs) (combined : Combines sign u v fs) {name : String}
    (left : u.load name < 2147483648) (right : v.load name < 2147483648)
    (light : w.load name < 2147483648) :
    (r.simplify w).unit.dimensionExponent name
      = u.dimensionExponent name + sign * v.dimensionExponent name := by
  subst unit
  have built : r.Builds (Product.ofFactors fs) := hu.combined hv combined
  have bound := light
  rw [← CompoundUnit.weigh_combined hu.canonical combined] at bound
  rw [UnitRegistry.simplify_exponent wf closed built light]
  exact CompoundUnit.combines_dimension (closed.oneDefinition wf) (closed.onePrimitive wf) combined
    (wf.indexed.parts_of_builds hu) (wf.indexed.parts_of_builds hv) left right bound

end Units

/-- What the factors of two units contribute to a base dimension stays in range, for each unit on
its own and for the unit that they are combined to. -/
structure Fits (u v : CompoundUnit α) (combined : Except (UnitError α) (CompoundUnit α))
    (name : String) : Prop where
  left : u.load name < 2147483648
  right : v.load name < 2147483648
  combined : ∀ w, combined = .ok w → w.load name < 2147483648

/-! ### Operators -/

section Operators

variable {env : Environment α} {op : Operator α} {a b : Operand α} {q : Quantity α}

/-- The result of an operator that multiplies units has the exact sums of the exponents. -/
theorem Operator.product_exact (wf : env.units.WellFormed) (closed : env.units.Closed)
    (ha : env.units.Builds a.value.unit) (hb : env.units.Builds b.value.unit)
    (units : op.units = .productUnit) (simplifies : op.simplifies = true)
    (h : op.apply env ⟨a, some b⟩ = .ok q) {name : String}
    (fits : Fits a.value.unit b.value.unit (a.value.unit.productWith b.value.unit) name) :
    q.unit.dimensionExponent name
      = a.value.unit.dimensionExponent name + b.value.unit.dimensionExponent name := by
  obtain ⟨-, c, calculated, rfl⟩ := Operator.apply_ok h
  rw [units] at calculated
  obtain ⟨unit, multiplied, rfl⟩ := UnitRule.multiplyOperands_ok calculated
  obtain ⟨fs, same, combined⟩ := CompoundUnit.productWith_spec multiplied
  rw [Operator.finish_unit_simplified simplifies]
  have exponents := UnitRegistry.simplify_combined_exponent wf closed ha hb same combined fits.left
    fits.right (fits.combined unit multiplied)
  rwa [one_mul] at exponents

/-- The result of an operator that divides units has the exact differences of the exponents, even if
the dividend counts as a plain number. -/
theorem Operator.quotient_exact (wf : env.units.WellFormed) (closed : env.units.Closed)
    (ha : env.units.Builds a.value.unit) (hb : env.units.Builds b.value.unit)
    (units : op.units = .quotientUnit) (simplifies : op.simplifies = true)
    (h : op.apply env ⟨a, some b⟩ = .ok q) {name : String}
    (fits : Fits a.value.unit b.value.unit (a.value.unit.quotientBy b.value.unit) name) :
    q.unit.dimensionExponent name
      = a.value.unit.dimensionExponent name - b.value.unit.dimensionExponent name := by
  obtain ⟨-, c, calculated, rfl⟩ := Operator.apply_ok h
  rw [units] at calculated
  rw [Operator.finish_unit_simplified simplifies]
  rcases UnitRule.divideOperands_ok calculated with ⟨unit, divided, rfl⟩
    | ⟨dimensionless, unit, divided, rfl⟩
  · obtain ⟨fs, same, combined⟩ := CompoundUnit.quotientBy_spec divided
    have exponents :=
      UnitRegistry.simplify_combined_exponent wf closed ha hb same combined fits.left
      fits.right (fits.combined unit divided)
    rwa [neg_one_mul, ← sub_eq_add_neg] at exponents
  · obtain ⟨fs, same, combined⟩ := CompoundUnit.quotientBy_spec divided
    have scalarLight : (CompoundUnit.scalar : CompoundUnit α).load name = 0 := rfl
    -- The reciprocal contributes no more than the divisor.
    have light : unit.load name < 2147483648 := by
      have lighter := CompoundUnit.combines_load_le (closed.oneDefinition wf)
        combined (wf.indexed.parts_of_builds UnitRegistry.builds_scalar)
          (wf.indexed.parts_of_builds hb) name
      rw [CompoundUnit.weigh_combined Product.canonical_unity combined, ← same,
        scalarLight] at lighter
      have right := fits.right
      omega
    have exponents :=
      UnitRegistry.simplify_combined_exponent wf closed UnitRegistry.builds_scalar hb
      same combined (by rw [scalarLight]; exact Nat.succ_pos _) fits.right light
    have scalarExponent : (CompoundUnit.scalar : CompoundUnit α).dimensionExponent name = 0 := rfl
    rw [Quantity.isDimensionless, CompoundUnit.isDimensionless_iff] at dimensionless
    rw [scalarExponent, neg_one_mul] at exponents
    rw [dimensionless name, sub_eq_add_neg]
    exact exponents

/-! ### Percentages -/

/-- A percentage that is accepted has no dimension. -/
theorem Preflight.dimensionless_of_percentAware {operands : Operands α}
    (accepted : Preflight.check env operands .percentAware = []) {o : Operand α}
    (member : o ∈ operands.toList) (percent : o.value.kind = .percent) (name : String) :
    o.value.unit.dimensionExponent name = 0 := by
  rw [Preflight.check, Preflight.requireDimensionless, List.map_eq_nil_iff, List.filter_eq_nil_iff]
    at accepted
  have selected : o ∈ operands.toList.filter fun o => o.value.kind == .percent := by
    rw [List.mem_filter]
    exact ⟨member, by rw [percent]; rfl⟩
  have dimensionless : o.value.isDimensionless = true := by
    have refused := accepted o selected
    simpa using refused
  exact (CompoundUnit.isDimensionless_iff _).mp dimensionless name

/-- An operator that refuses to divide by zero checks everything else, too. -/
theorem Preflight.accepted_of_nonZeroDivisor {operands : Operands α} {inner : Preflight}
    (accepted : Preflight.check env operands (.nonZeroDivisor inner) = []) :
    Preflight.check env operands inner = [] := by
  rw [Preflight.check] at accepted
  split at accepted
  next silent => exact silent
  next => exact accepted

theorem UnitRule.percentOperands_left {x y : Quantity α} (xOther : x.kind ≠ .percent) :
    (UnitRule.percentOperands x y).unit = x.unit := by
  simp [UnitRule.percentOperands, UnitRule.plainly, xOther]

theorem UnitRule.percentOperands_right {x y : Quantity α} (xPercent : x.kind = .percent)
    (yOther : y.kind ≠ .percent) : (UnitRule.percentOperands x y).unit = y.unit := by
  simp [UnitRule.percentOperands, UnitRule.plainly, xPercent, yOther]

/-- A percentage of a base has the dimension of the base, and the percentage itself has none. -/
theorem Operator.percent_exact (wf : env.units.WellFormed) (closed : env.units.Closed)
    (units : op.units = .percentOf) (simplifies : op.simplifies = true)
    (aware : op.preflight.check env ⟨a, some b⟩ = [] →
      Preflight.check env ⟨a, some b⟩ .percentAware = [])
    (h : op.apply env ⟨a, some b⟩ = .ok q) {base percentage : Operand α}
    (unit : (UnitRule.percentOperands a.value b.value).unit = base.value.unit)
    (built : env.units.Builds base.value.unit) (member : percentage ∈ [a, b])
    (percent : percentage.value.kind = .percent) {name : String}
    (light : base.value.unit.load name < 2147483648) :
    percentage.value.unit.dimensionExponent name = 0
      ∧ q.unit.dimensionExponent name = base.value.unit.dimensionExponent name := by
  obtain ⟨accepted, c, calculated, rfl⟩ := Operator.apply_ok h
  constructor
  · exact Preflight.dimensionless_of_percentAware (aware accepted) member percent name
  · rw [units] at calculated
    cases calculated
    rw [Operator.finish_unit_simplified simplifies, unit]
    exact UnitRegistry.simplify_exponent wf closed built light

end Operators

/-! ### Evaluation -/

section Evaluation

variable [Elementary α] {s : Scope α} {preferences : Preferences} {span : Span}

/-- The operators of a symbol that may be found for two operands. -/
theorem applyOperator_ok (operators : s.operators = OperatorTable.standard) {symbol : String}
    {a b : Operand α} {q : Quantity α}
    (h : applyOperator s preferences symbol .leading ⟨a, some b⟩ span = .ok q) :
    ∃ op, OperatorTable.standard.resolve? symbol
        (.binary (OperandKind.ofValueKind a.value.kind) (OperandKind.ofValueKind b.value.kind))
          = some op
      ∧ op.apply (s.environment preferences) ⟨a, some b⟩ = .ok q := by
  rw [applyOperator, operators] at h
  split at h
  next op found => exact ⟨op, found, h⟩
  next => cases h

theorem OperandKind.ofValueKind_eq_percent {kind : ValueKind} (h : ofValueKind kind = .percent) :
    kind = .percent := by
  cases kind with
  | number => cases h
  | percent => rfl
  | angle => cases h

theorem OperandKind.ne_percent {kind : ValueKind} (h : ofValueKind kind = .number) :
    kind ≠ .percent := by
  rintro rfl
  cases h

/-- The exponents of a product are the sums of those of its operands, where these fit. -/
theorem applyOperator_product_exact (rooted : s.Rooted) {a b : Operand α} {q : Quantity α}
    (ha : s.units.Builds a.value.unit) (hb : s.units.Builds b.value.unit)
    (h : applyOperator s preferences "*" .leading ⟨a, some b⟩ span = .ok q) {name : String}
    (fits : Fits a.value.unit b.value.unit (a.value.unit.productWith b.value.unit) name) :
    q.unit.dimensionExponent name
      = a.value.unit.dimensionExponent name + b.value.unit.dimensionExponent name := by
  have wf : (s.environment preferences).units.WellFormed := rooted.wellFormed
  have closed : (s.environment preferences).units.Closed := rooted.closed
  obtain ⟨op, resolved, applied⟩ := applyOperator_ok rooted.operators h
  cases aKind : OperandKind.ofValueKind a.value.kind with
  | number =>
      rw [aKind] at resolved
      cases bKind : OperandKind.ofValueKind b.value.kind with
      | number =>
          rw [bKind] at resolved
          cases resolved
          exact Operator.product_exact wf closed ha hb rfl rfl applied fits
      | percent =>
          rw [bKind] at resolved
          cases resolved
          have unit := UnitRule.percentOperands_left (y := b.value) (OperandKind.ne_percent aKind)
          obtain ⟨noDimension, ofBase⟩ :=
            Operator.percent_exact wf closed rfl rfl id applied unit ha
            (List.mem_cons_of_mem _ List.mem_cons_self) (OperandKind.ofValueKind_eq_percent bKind)
            fits.left
          rw [noDimension, ofBase, add_zero]
  | percent =>
      rw [aKind] at resolved
      cases bKind : OperandKind.ofValueKind b.value.kind with
      | number =>
          rw [bKind] at resolved
          cases resolved
          have aPercent := OperandKind.ofValueKind_eq_percent aKind
          have unit := UnitRule.percentOperands_right aPercent (OperandKind.ne_percent bKind)
          obtain ⟨noDimension, ofBase⟩ :=
            Operator.percent_exact wf closed rfl rfl id applied unit hb
            List.mem_cons_self aPercent fits.right
          rw [noDimension, ofBase, zero_add]
      | percent =>
          rw [bKind] at resolved
          cases resolved

/-- The exponents of a quotient are the differences of those of its operands, where these fit. -/
theorem applyOperator_quotient_exact (rooted : s.Rooted) {a b : Operand α} {q : Quantity α}
    (ha : s.units.Builds a.value.unit) (hb : s.units.Builds b.value.unit)
    (h : applyOperator s preferences "/" .leading ⟨a, some b⟩ span = .ok q) {name : String}
    (fits : Fits a.value.unit b.value.unit (a.value.unit.quotientBy b.value.unit) name) :
    q.unit.dimensionExponent name
      = a.value.unit.dimensionExponent name - b.value.unit.dimensionExponent name := by
  have wf : (s.environment preferences).units.WellFormed := rooted.wellFormed
  have closed : (s.environment preferences).units.Closed := rooted.closed
  obtain ⟨op, resolved, applied⟩ := applyOperator_ok rooted.operators h
  cases aKind : OperandKind.ofValueKind a.value.kind with
  | number =>
      rw [aKind] at resolved
      cases bKind : OperandKind.ofValueKind b.value.kind with
      | number =>
          rw [bKind] at resolved
          cases resolved
          exact Operator.quotient_exact wf closed ha hb rfl rfl applied fits
      | percent =>
          rw [bKind] at resolved
          cases resolved
          have unit := UnitRule.percentOperands_left (y := b.value) (OperandKind.ne_percent aKind)
          obtain ⟨noDimension, ofBase⟩ := Operator.percent_exact wf closed rfl rfl
            Preflight.accepted_of_nonZeroDivisor applied unit ha
            (List.mem_cons_of_mem _ List.mem_cons_self) (OperandKind.ofValueKind_eq_percent bKind)
            fits.left
          rw [noDimension, ofBase, sub_zero]
  | percent =>
      -- No operator divides a percentage.
      rw [aKind] at resolved
      cases bKind : OperandKind.ofValueKind b.value.kind with
      | number =>
          rw [bKind] at resolved
          cases resolved
      | percent =>
          rw [bKind] at resolved
          cases resolved

/-- Either nothing was computed and something was reported, or there is a value.  Its dimension has
a given exponent wherever the operands fit, and nowhere beyond the range of an exponent. -/
def ReportedOrExact (o : Outcome α) (fits : String → Prop) (exponent : String → Int) : Prop :=
  (o.value = none ∧ o.reports ≠ [])
    ∨ ∃ q, o.value = some q ∧ ∀ name, (fits name → q.unit.dimensionExponent name = exponent name)
      ∧ (q.unit.dimensionExponent name = exponent name →
        -2147483648 ≤ exponent name ∧ exponent name ≤ 2147483647)

/-- What holds of an operator holds of the node that applies it to two values. -/
theorem reportedOrExact_binary (rooted : s.Rooted) {left right : Node} {a b : Quantity α}
    (first : (evaluate preferences left s).value = some a)
    (second : (evaluate preferences right (evaluate preferences left s).scope).value = some b)
    {fits : String → Prop} {exponent : String → Int} {symbol : String} {token : Token}
    (exponents : ∀ s' : Scope α, s'.Rooted → s'.units.Builds a.unit → s'.units.Builds b.unit →
      ∀ q, applyOperator s' preferences symbol .leading
          ⟨⟨left.span, a⟩, some ⟨right.span, b⟩⟩ span = .ok q →
        ∀ name, fits name → q.unit.dimensionExponent name = exponent name) :
    ReportedOrExact (evaluate preferences (.binary symbol token left right span) s)
      fits exponent := by
  have before := evaluate_rooted preferences left rooted
  have after := evaluate_rooted preferences right before.scope
  rw [ReportedOrExact, evaluate, Outcome.both]
  dsimp only
  rw [first, second]
  dsimp only
  generalize evaluate preferences right (evaluate preferences left s).scope
    = later at second after ⊢
  cases applied : applyOperator later.scope preferences symbol .leading
      ⟨⟨left.span, a⟩, some ⟨right.span, b⟩⟩ span with
  | error reports =>
      have nonempty : reports ≠ [] :=
        applyOperator_reported after.scope.operators _ _ _ _ _ reports applied
      left
      refine ⟨rfl, fun silent => ?_⟩
      exact nonempty (List.append_eq_nil_iff.mp silent).2
  | ok q =>
      right
      refine ⟨q, rfl, fun name => ⟨?_, ?_⟩⟩
      · have aBuilt : later.scope.units.Builds a.unit := by
          rw [after.units, before.units]
          exact before.value a first
        have bBuilt : later.scope.units.Builds b.unit := by
          rw [after.units]
          exact after.value b second
        exact exponents later.scope after.scope aBuilt bBuilt q applied name
      · intro reached
        rw [← reached]
        exact ⟨(q.unit.dimension.exponentOf name).lower, (q.unit.dimension.exponentOf name).upper⟩

/-- Whatever has been declared and evaluated, as long as all units are defined from registered ones:
a product or a quotient is reported, or its dimension is exact wherever what the factors contribute
to it stays in range. -/
theorem evaluate_reported_or_exact (grown : s.Grown) (preferences : Preferences) {left right : Node}
    {a b : Quantity α} (first : (evaluate preferences left s).value = some a)
    (second : (evaluate preferences right (evaluate preferences left s).scope).value = some b)
    (token : Token) (span : Span) :
    ReportedOrExact (evaluate preferences (.binary "*" token left right span) s)
        (Fits a.unit b.unit (a.unit.productWith b.unit))
        (fun name => a.unit.dimensionExponent name + b.unit.dimensionExponent name)
      ∧ ReportedOrExact (evaluate preferences (.binary "/" token left right span) s)
        (Fits a.unit b.unit (a.unit.quotientBy b.unit))
        (fun name => a.unit.dimensionExponent name - b.unit.dimensionExponent name) := by
  constructor
  · apply reportedOrExact_binary grown.rooted first second
    intro s' rooted ha hb q applied name fits
    exact applyOperator_product_exact rooted ha hb applied fits
  · apply reportedOrExact_binary grown.rooted first second
    intro s' rooted ha hb q applied name fits
    exact applyOperator_quotient_exact rooted ha hb applied fits

end Evaluation

/-! ### Metres by kilometres -/

section Lengths

/-- One metre raised to the highest power there is. -/
def reach : Quantity Float := Quantity.of 1 (Product.ofFactors [⟨metre, Exponent.maximum⟩])

def lengthScope : Scope Float :=
  Scope.standard.declareAll (lengthDeclarations ++ [.binding "reach" reach false])

theorem lengthScope_grown : lengthScope.Grown := by
  have units : (Scope.standard.declareAll lengthDeclarations : Scope Float).Grown := by
    refine .declare (.declare .standard (.primitiveUnit _ _ _) trivial) (.derivedUnit _ _ _) ?_
    exact UnitRegistry.builds_ofNamed (List.mem_singleton_self _)
  refine .declare units (.binding _ _ _) (UnitRegistry.builds_ofFactors fun f hf => ?_)
  rw [List.mem_singleton.mp hf]
  exact List.mem_cons_self

/-- The product of a name and the kilometre. -/
def byKilometre (left : Node) : Node :=
  .binary "*" ⟨"*", ⟨6, 7⟩⟩ left (.unitName "km" ⟨8, 10⟩) ⟨0, 10⟩

/-- A metre times a kilometre stays in range, so the dimension is the square of length. -/
theorem metre_by_kilometre_reported_or_exact :
    let run := fun n => evaluate Preferences.standard n lengthScope
    lengthScope.Grown
      ∧ (run (.unitName "m" ⟨0, 1⟩)).value = some (Quantity.ofUnit (CompoundUnit.ofNamed metre))
      ∧ (run (.unitName "km" ⟨8, 10⟩)).value
        = some (Quantity.ofUnit (CompoundUnit.ofNamed kilometre))
      ∧ ∃ q, (run (byKilometre (.unitName "m" ⟨0, 1⟩))).value = some q
        ∧ q.unit.dimensionExponent "Length" = 2 := by
  have metres : (evaluate Preferences.standard (.unitName "m" ⟨0, 1⟩) lengthScope).value
      = some (Quantity.ofUnit (CompoundUnit.ofNamed metre)) := rfl
  have kilometres : (evaluate Preferences.standard (.unitName "km" ⟨8, 10⟩) lengthScope).value
      = some (Quantity.ofUnit (CompoundUnit.ofNamed kilometre)) := rfl
  refine ⟨lengthScope_grown, metres, kilometres, ?_⟩
  have product :=
    (evaluate_reported_or_exact lengthScope_grown Preferences.standard metres kilometres
    ⟨"*", ⟨6, 7⟩⟩ ⟨0, 10⟩).1
  rcases product with ⟨missing, -⟩ | ⟨q, valued, exponents⟩
  · cases missing
  · refine ⟨q, valued, (exponents "Length").1 ⟨by decide, by decide, fun w found => ?_⟩⟩
    cases found
    decide

/-- Where different names meet, nothing is reported: the exponent stops at its bound. -/
theorem reach_by_kilometre_not_exact :
    let run := fun n => evaluate Preferences.standard n lengthScope
    let kilometres := Quantity.ofUnit (CompoundUnit.ofNamed (kilometre : NamedUnit Float))
    lengthScope.Grown
      ∧ (run (.identifier "reach" ⟨0, 5⟩)).value = some reach
      ∧ (run (.unitName "km" ⟨8, 10⟩)).value = some kilometres
      ∧ (run (byKilometre (.identifier "reach" ⟨0, 5⟩))).reports = []
      ∧ ∃ q, (run (byKilometre (.identifier "reach" ⟨0, 5⟩))).value = some q
        ∧ q.unit.dimensionExponent "Length" = 2147483647
        ∧ reach.unit.dimensionExponent "Length" + kilometres.unit.dimensionExponent "Length"
          = 2147483648 :=
  ⟨lengthScope_grown, rfl, rfl, rfl, _, rfl, rfl, rfl⟩

end Lengths

end QuantityCalculus
