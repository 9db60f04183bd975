/-
Module: QuantityCalculus.Proofs.Units.Convertible
Layer: Proofs
Purpose: Which units convert into each other.  Among the units that operations on registered units
  lead to, those of one dimension do and no others, as long as no exponent of a dimension leaves its
  range when nested definitions are multiplied out.
Imports: QuantityCalculus.Proofs.Units.Built, QuantityCalculus.Proofs.Units.PrimitiveUnits
Trusted boundary: none
Main exports: CompoundUnit.ratioTo_isOk_iff, UnitRegistry.obtained_units_convert_iff,
  steep_area_converts_wrongly
Open obligations: none
-/
import QuantityCalculus.Proofs.Units.Built
import QuantityCalculus.Proofs.Units.PrimitiveUnits

namespace QuantityCalculus

variable {α : Type} [Scalar α]

theorem CompoundUnit.ratioTo_isOk_iff (u v : CompoundUnit α) :
    (∃ ratio, u.ratioTo v = .ok ratio) ↔ u.dimension.agrees v.dimension = true := by
  by_cases same : u.dimension.agrees v.dimension = true
  · simp [CompoundUnit.ratioTo, same]
  · simp [CompoundUnit.ratioTo, same]

/-- Whatever has been registered and asked, and whichever products, quotients and powers have been
formed of registered units: two units convert into each other if and only if they have the same
dimension by their definitions, as long as every name stands for one definition and what is
multiplied out to a single base dimension stays in the range of an exponent. -/
theorem UnitRegistry.obtained_units_convert_iff {r : UnitRegistry α}
    {asked : List (SchemeQuestion α)}
    (reached : r.Reached asked) (oneDefinition : OneDefinition r.parts) {a b : CompoundUnit α}
    (ha : r.Obtains a) (hb : r.Obtains b)
    (moderate : ∀ name, a.extentIn name < 2147483648 ∧ b.extentIn name < 2147483648) :
    (∃ ratio, a.ratioTo b = .ok ratio) ↔ ∀ name, a.trueExponent name = b.trueExponent name := by
  have inside : ∀ {u : CompoundUnit α}, r.Obtains u → OneDefinition (CompoundUnit.parts u) :=
    fun hu => oneDefinition.mono (hu.parts_subset reached.indexed)
  rw [CompoundUnit.ratioTo_isOk_iff, CompoundUnit.dimension_agrees_iff]
  refine forall_congr' fun name => ?_
  obtain ⟨lightA, lightB⟩ := moderate name
  rw [CompoundUnit.dimensionExponent_eq_of_extentIn (inside ha) lightA,
    CompoundUnit.dimensionExponent_eq_of_extentIn (inside hb) lightB]

/-! ### Powers of named units -/

omit [Scalar α] in
/-- A single unit is raised to any exponent but zero. -/
theorem CompoundUnit.rationalPower_ofNamed (v : NamedUnit α) {e : Exponent} (nonzero : e.val ≠ 0) :
    (CompoundUnit.ofNamed v).rationalPower (e.val : Rat) = .ok ⟨[⟨v, e⟩]⟩ := by
  have raised : Product.ofFactors [(⟨v, e⟩ : Factor (NamedUnit α))] = ⟨[⟨v, e⟩]⟩ := by
    rw [Product.ofFactors_of_nodup (Product.nodup_names_singleton _)]
    simp [nonzero]
  have single : Product.Raised (e.val : Rat) [⟨v, Exponent.one⟩] [⟨v, e⟩] :=
    .cons ⟨rfl, by simp [Exponent.one]⟩ .nil
  rw [CompoundUnit.rationalPower_eq_ok_iff, Product.rationalPower_eq_ok_iff,
    CompoundUnit.ofNamed_eq]
  exact ⟨[⟨v, e⟩], raised.symm, single⟩

omit [Scalar α] in
/-- A registered unit can be raised to every exponent. -/
theorem UnitRegistry.Obtains.namedPower {r : UnitRegistry α} {v : NamedUnit α}
    (h : r.Obtains (CompoundUnit.ofNamed v)) {e : Exponent} (nonzero : e.val ≠ 0) :
    r.Obtains ⟨[⟨v, e⟩]⟩ := .power h (CompoundUnit.rationalPower_ofNamed v nonzero)

/-! ### Square metres -/

section Squares

def squareMetre : NamedUnit Float :=
  .derived (.ofSymbol "sq") 1
    ((CompoundUnit.ofNamed metreUnit).mul (CompoundUnit.ofNamed metreUnit))

def areaActions : List (RegistryAction Float) :=
  [.addPrimitive metreUnit [], .addDerived squareMetre []]

/-- The registry of the metre and the square metre. -/
def areas : UnitRegistry Float := UnitRegistry.empty.performAll areaActions

theorem areas_oneDefinition : OneDefinition areas.parts := by
  have symbols : ([metreUnit, squareMetre].map NamedUnit.symbol).Nodup := by decide
  have listed : areas.parts = [metreUnit, squareMetre, metreUnit] := rfl
  refine OneDefinition.of_symbols symbols ?_
  rw [listed]
  simp

theorem areas_obtains_metre : areas.Obtains (CompoundUnit.ofNamed metreUnit) :=
  .registered (show areas.get "m" = .ok _ from rfl)

theorem areas_obtains_squareMetre : areas.Obtains (CompoundUnit.ofNamed squareMetre) :=
  .registered (show areas.get "sq" = .ok _ from rfl)

/-- A power of the metre. -/
def metrePower (e : Exponent) : CompoundUnit Float := ⟨[⟨metreUnit, e⟩]⟩

/-- A power of the square metre, per metre. -/
def areaPerMetre (e : Exponent) : CompoundUnit Float :=
  ⟨[⟨squareMetre, e⟩, ⟨metreUnit, Exponent.minusOne⟩]⟩

theorem metrePower_trueExponent (e : Exponent) (name : String) :
    (metrePower e).trueExponent name = if "Length" = name then e.val else 0 := by
  simp [CompoundUnit.trueExponent, CompoundUnit.linear, metrePower, metreUnit]

theorem areaPerMetre_trueExponent (e : Exponent) (name : String) :
    (areaPerMetre e).trueExponent name = if "Length" = name then e.val * 2 - 1 else 0 := by
  have square : squareMetre.linear (fun _ dimension => if dimension = name then 1 else 0)
      = (metrePower ⟨2, by decide, by decide⟩).trueExponent name := NamedUnit.linear_derived _ _ _ _
  have metre : metreUnit.linear (fun _ dimension => if dimension = name then 1 else 0)
      = if "Length" = name then 1 else 0 := rfl
  rw [CompoundUnit.trueExponent, CompoundUnit.linear, areaPerMetre, Product.total_cons,
    Product.total_cons, Product.total_nil, square, metre, metrePower_trueExponent]
  split
  · simp [Exponent.minusOne, sub_eq_add_neg]
  · simp

/-- The square metre per metre converts into the metre. -/
theorem areaPerMetre_converts :
    let a : CompoundUnit Float := areaPerMetre Exponent.one
    let b : CompoundUnit Float := metrePower Exponent.one
    areas.Obtains a ∧ areas.Obtains b
      ∧ (∀ name, a.extentIn name < 2147483648 ∧ b.extentIn name < 2147483648)
      ∧ ∃ ratio, a.ratioTo b = .ok ratio := by
  intro a b
  obtain ⟨asked, reached⟩ := UnitRegistry.exists_reached areaActions
  have obtainedA : areas.Obtains a := .quotient areas_obtains_squareMetre areas_obtains_metre rfl
  have obtainedB : areas.Obtains b := areas_obtains_metre.namedPower (by decide)
  have moderate : ∀ name, a.extentIn name < 2147483648 ∧ b.extentIn name < 2147483648 := by
    intro name
    have extentA : a.extent < 2147483648 := by decide
    have extentB : b.extent < 2147483648 := by decide
    exact ⟨(a.extentIn_le_extent name).trans_lt extentA,
      (b.extentIn_le_extent name).trans_lt extentB⟩
  refine ⟨obtainedA, obtainedB, moderate, (UnitRegistry.obtained_units_convert_iff reached
    areas_oneDefinition obtainedA obtainedB moderate).mpr fun name => ?_⟩
  rw [areaPerMetre_trueExponent, metrePower_trueExponent]
  rfl

/-- The square metre to the power 2³⁰, per metre, is the metre to the power 2³¹ - 1 by its
definition.  It is converted into another power of the metre, and is not converted into that one. -/
theorem steep_area_converts_wrongly :
    let a : CompoundUnit Float := areaPerMetre ⟨1073741824, by decide, by decide⟩
    let b : CompoundUnit Float := metrePower ⟨2147483646, by decide, by decide⟩
    let c : CompoundUnit Float := metrePower Exponent.maximum
    OneDefinition areas.parts ∧ areas.Obtains a ∧ areas.Obtains b ∧ areas.Obtains c
      ∧ (∃ ratio, a.ratioTo b = .ok ratio) ∧ a.trueExponent "Length" ≠ b.trueExponent "Length"
      ∧ (¬∃ ratio, a.ratioTo c = .ok ratio)
      ∧ ∀ name, a.trueExponent name = c.trueExponent name := by
  intro a b c
  have raised : areas.Obtains ⟨[⟨squareMetre, ⟨1073741824, by decide, by decide⟩⟩]⟩ :=
    areas_obtains_squareMetre.namedPower (by decide)
  refine ⟨areas_oneDefinition, .quotient raised areas_obtains_metre rfl,
    areas_obtains_metre.namedPower (by decide), areas_obtains_metre.namedPower (by decide), ?_, ?_,
    ?_,
    ?_⟩
  · rw [CompoundUnit.ratioTo_isOk_iff]
    decide
  · rw [areaPerMetre_trueExponent, metrePower_trueExponent]
    decide
  · rw [CompoundUnit.ratioTo_isOk_iff]
    decide
  · intro name
    rw [areaPerMetre_trueExponent, metrePower_trueExponent]
    rfl

end Squares

end QuantityCalculus
