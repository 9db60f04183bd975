/-
Module: QuantityCalculus.Proofs.Units.Factor
Layer: Proofs
Purpose: Conversion factors in exact arithmetic: the factor of a unit is the product of those of its
  factors, so it follows units through products, quotients and simplification.
Imports: QuantityCalculus.Proofs.Scalar.Exact, QuantityCalculus.Proofs.Units.Conversion,
  QuantityCalculus.Proofs.Units.Simplification
Trusted boundary: none
Main exports: NamedUnit.HasPositiveFactor, factorProduct, CompoundUnit.factor_eq_factorProduct,
  combines_factorProduct, factor_eq_of_agrees, mergeSameDimension_factor, simplify_close
Open obligations: none
-/
import QuantityCalculus.Proofs.Scalar.Exact
import QuantityCalculus.Proofs.Units.Conversion
import QuantityCalculus.Proofs.Units.Simplification

namespace QuantityCalculus

open Product (Combines total weigh)

/-- The factor of a named unit. -/
def NamedUnit.factor (b : NamedUnit Rat) : Rat := b.expansion.factor

/-- What the factors of a list of powers of units multiply to. -/
def factorProduct (fs : List (Factor (NamedUnit Rat))) : Rat :=
  (fs.map fun f => f.base.factor ^ f.exponent.val).prod

@[simp] theorem factorProduct_nil : factorProduct [] = 1 := rfl

@[simp] theorem factorProduct_cons (f : Factor (NamedUnit Rat))
    (fs : List (Factor (NamedUnit Rat))) :
    factorProduct (f :: fs) = f.base.factor ^ f.exponent.val * factorProduct fs := by
  rw [factorProduct, List.map_cons, List.prod_cons, factorProduct]

@[simp] theorem factorProduct_append (fs gs : List (Factor (NamedUnit Rat))) :
    factorProduct (fs ++ gs) = factorProduct fs * factorProduct gs := by
  rw [factorProduct, List.map_append, List.prod_append, factorProduct, factorProduct]

/-- The factor of a unit is the product of those of its factors, raised to their exponents. -/
theorem CompoundUnit.factor_eq_factorProduct (u : CompoundUnit Rat) :
    u.factor = factorProduct u.factors := by
  have powers : (u.factors.map fun f => f.base.expansion.power f.exponent).map (·.factor)
      = u.factors.map fun f => f.base.factor ^ f.exponent.val := by
    rw [List.map_map]
    exact List.map_congr_left fun f _ => Scalar.powInt_eq_zpow _ _
  rw [CompoundUnit.factor, CompoundUnit.expansion_eq, Expansion.product, powers, factorProduct,
    List.prod_eq_foldl]

@[simp] theorem NamedUnit.factor_primitive (names : UnitNames) (dimension : String) :
    (NamedUnit.primitive names dimension : NamedUnit Rat).factor = 1 := by
  rw [NamedUnit.factor, NamedUnit.expansion]

/-- The factor of a derived unit is its own times that of its definition. -/
theorem NamedUnit.factor_derived (names : UnitNames) (factor : Rat)
    (definition : CompoundUnit Rat) :
    (NamedUnit.derived names factor definition).factor
      = factor * factorProduct definition.factors := by
  rw [NamedUnit.factor, NamedUnit.expansion, ← CompoundUnit.factor_eq_factorProduct]
  rfl

theorem CompoundUnit.factor_ofNamed (b : NamedUnit Rat) :
    (CompoundUnit.ofNamed b).factor = b.factor := by
  rw [CompoundUnit.factor_eq_factorProduct, CompoundUnit.ofNamed_eq, factorProduct_cons,
    factorProduct_nil, mul_one]
  exact zpow_one _

theorem CompoundUnit.factor_scalar : (CompoundUnit.scalar : CompoundUnit Rat).factor = 1 := by
  rw [CompoundUnit.factor_eq_factorProduct]
  rfl

/-- A factor is a fold over the definition. -/
theorem NamedUnit.factor_eq_fold (b : NamedUnit Rat) :
    b.factor = b.fold (fun _ _ => 1)
      fun _ factor fs => factor * (fs.map fun f => f.base ^ f.exponent.val).prod := by
  induction b using NamedUnit.inductionOn with
  | primitive names dimension => exact NamedUnit.factor_primitive names dimension
  | derived names factor definition ih =>
      rw [NamedUnit.factor_derived, NamedUnit.fold_derived, factorProduct, List.map_map]
      refine congrArg (fun xs => factor * List.prod xs) (List.map_congr_left fun f hf => ?_)
      rw [Function.comp_apply, ih f hf]

/-! ### Positive factors -/

/-- A derived unit is a positive multiple of its definition. -/
def NamedUnit.HasPositiveFactor : NamedUnit Rat → Prop
  | .primitive _ _ => True
  | .derived _ factor _ => 0 < factor

/-- Products of positive factors are positive. -/
theorem factorProduct_pos {fs : List (Factor (NamedUnit Rat))} (h : ∀ f ∈ fs, 0 < f.base.factor) :
    0 < factorProduct fs := by
  induction fs with
  | nil => exact one_pos
  | cons f fs ih =>
      rw [factorProduct_cons]
      exact mul_pos (zpow_pos (h f List.mem_cons_self) _)
        (ih fun g hg => h g (List.mem_cons_of_mem _ hg))

/-- A unit that is defined by positive factors has one itself. -/
theorem NamedUnit.factor_pos {b : NamedUnit Rat} (h : ∀ v ∈ b.parts, v.HasPositiveFactor) :
    0 < b.factor := by
  induction b using NamedUnit.inductionOn with
  | primitive names dimension =>
      rw [NamedUnit.factor_primitive]
      exact one_pos
  | derived names factor definition ih =>
      have own : 0 < factor := h _ (NamedUnit.mem_parts_self _)
      rw [NamedUnit.factor_derived]
      refine mul_pos own (factorProduct_pos fun f hf => ih f hf fun v hv => h v ?_)
      exact NamedUnit.parts_definition_subset names factor definition
        (CompoundUnit.parts_base_subset hf hv)

theorem CompoundUnit.factor_pos {u : CompoundUnit Rat}
    (h : ∀ v ∈ CompoundUnit.parts u, v.HasPositiveFactor) : 0 < u.factor := by
  rw [CompoundUnit.factor_eq_factorProduct]
  refine factorProduct_pos fun f hf => NamedUnit.factor_pos fun v hv => h v ?_
  exact CompoundUnit.parts_base_subset hf hv

/-! ### Factors of combined units -/

section OneDefinition

variable {us : List (NamedUnit Rat)} (oneDefinition : OneDefinition us)
  (positive : ∀ v ∈ us, v.HasPositiveFactor)

include oneDefinition positive

/-- A factor is a function of the name, and one that can be inverted. -/
theorem NamedUnit.exists_factor_byName :
    ∃ byName : String → Additive Ratˣ, ∀ v : NamedUnit Rat, v.parts ⊆ us →
      ((byName (key v)).toMul : Rat) = v.factor := by
  obtain ⟨byName, named⟩ := oneDefinition.exists_byName (fun _ _ => (1 : Rat))
    fun _ factor fs => factor * (fs.map fun f => f.base ^ f.exponent.val).prod
  refine ⟨fun name => if nonzero : byName name ≠ 0 then .ofMul (Units.mk0 (byName name) nonzero)
    else 0, fun v hv => ?_⟩
  have factor : byName (key v) = v.factor := by
    rw [NamedUnit.factor_eq_fold]
    exact named v (hv v.mem_parts_self)
  have nonzero : byName (key v) ≠ 0 := by
    rw [factor]
    exact (NamedUnit.factor_pos fun w hw => positive w (hv hw)).ne'
  dsimp only
  rw [dif_pos nonzero]
  exact factor

omit oneDefinition positive in
/-- As a value by name, in the group of numbers other than zero, factors are added up like
degrees. -/
theorem factorProduct_eq_total {byName : String → Additive Ratˣ}
    (named : ∀ v : NamedUnit Rat, v.parts ⊆ us → ((byName (key v)).toMul : Rat) = v.factor)
    {fs : List (Factor (NamedUnit Rat))} (inside : ∀ f ∈ fs, f.base.parts ⊆ us) :
    factorProduct fs = ((total (fun b => byName (key b)) fs).toMul : Rat) := by
  induction fs with
  | nil => rfl
  | cons f fs ih =>
      rw [factorProduct_cons, Product.total_cons, toMul_add, Units.val_mul, toMul_zsmul,
        Units.val_zpow_eq_zpow_val, named f.base (inside f List.mem_cons_self),
        ih fun g hg => inside g (List.mem_cons_of_mem _ hg)]

/-- Merging factors of the same name keeps what they multiply to. -/
theorem factor_ofFactors {fs : List (Factor (NamedUnit Rat))} (inside : ∀ f ∈ fs, f.base.parts ⊆ us)
    (bound : weigh (fun _ => 1) fs < 2147483648) :
    CompoundUnit.factor (Product.ofFactors fs) = factorProduct fs := by
  obtain ⟨byName, named⟩ := NamedUnit.exists_factor_byName oneDefinition positive
  have insideMerged := CompoundUnit.parts_subset_iff.mp (CompoundUnit.parts_ofFactors_subset inside)
  have merging : total (fun b => byName (key b)) (Product.ofFactors fs).factors
      = total (fun b => byName (key b)) fs := by
    apply Product.total_ofFactors
    intro name _
    exact (Product.spread_le_weigh_one _ _).trans_lt bound
  rw [CompoundUnit.factor_eq_factorProduct, factorProduct_eq_total named insideMerged, merging,
    factorProduct_eq_total named inside]

/-- The factors of combined units are multiplied or divided. -/
theorem combines_factorProduct {sign : Int} {u v : CompoundUnit Rat}
    {fs : List (Factor (NamedUnit Rat))} (combined : Combines sign u v fs)
    (hu : CompoundUnit.parts u ⊆ us) (hv : CompoundUnit.parts v ⊆ us) :
    factorProduct fs = u.factor * v.factor ^ sign := by
  obtain ⟨byName, named⟩ := NamedUnit.exists_factor_byName oneDefinition positive
  have insideU := CompoundUnit.parts_subset_iff.mp hu
  have insideV := CompoundUnit.parts_subset_iff.mp hv
  rw [factorProduct_eq_total named (CompoundUnit.combines_parts combined hu hv),
    combined.total_eq, toMul_add, Units.val_mul, toMul_zsmul, Units.val_zpow_eq_zpow_val,
    ← factorProduct_eq_total named insideU, ← factorProduct_eq_total named insideV,
    CompoundUnit.factor_eq_factorProduct, CompoundUnit.factor_eq_factorProduct]

/-- Units with the same factors in another order convert alike. -/
theorem factor_eq_of_agrees {u v : CompoundUnit Rat} (canonicalU : Product.Canonical u)
    (canonicalV : Product.Canonical v) (hu : CompoundUnit.parts u ⊆ us)
    (hv : CompoundUnit.parts v ⊆ us) (agrees : u.agrees v = true) : u.factor = v.factor := by
  obtain ⟨byName, named⟩ := NamedUnit.exists_factor_byName oneDefinition positive
  have insideU := CompoundUnit.parts_subset_iff.mp hu
  have insideV := CompoundUnit.parts_subset_iff.mp hv
  have degrees := (Product.agrees_iff_degree canonicalU canonicalV).mp agrees
  rw [CompoundUnit.factor_eq_factorProduct, CompoundUnit.factor_eq_factorProduct,
    factorProduct_eq_total named insideU, factorProduct_eq_total named insideV,
    Product.total_eq_of_degree fun name _ => degrees name]

/-! ### Simplification -/

omit oneDefinition in
/-- What is taken out of the factors when they are merged is put into the scalar. -/
theorem foldl_append_factorProduct (m : MergedFactors Rat) {fs : List (Factor (NamedUnit Rat))}
    (inMerged : ∀ g ∈ m.factors, g.base.parts ⊆ us) (inside : ∀ f ∈ fs, f.base.parts ⊆ us) :
    (fs.foldl MergedFactors.append m).scalar
        * factorProduct (fs.foldl MergedFactors.append m).factors
      = m.scalar * factorProduct m.factors * factorProduct fs := by
  induction fs generalizing m with
  | nil => rw [List.foldl_nil, factorProduct_nil, mul_one]
  | cons f fs ih =>
      have later : ∀ g ∈ fs, g.base.parts ⊆ us := fun g hg =>
        inside g (List.mem_cons_of_mem _ hg)
      have here : f.base.parts ⊆ us := inside f List.mem_cons_self
      rw [List.foldl_cons, factorProduct_cons]
      rcases m.append_cases f with kept | ⟨g, hg, -, merged⟩
      · have inKept : ∀ e ∈ (m.append f).factors, e.base.parts ⊆ us := by
          intro e he
          rw [kept, List.mem_append, List.mem_singleton] at he
          rcases he with old | rfl
          · exact inMerged e old
          · exact here
        rw [ih (m.append f) inKept later, kept, factorProduct_append, factorProduct_cons,
          factorProduct_nil]
        ring
      · have inReplaced : ∀ e ∈ (m.append f).factors, e.base.parts ⊆ us := by
          intro e he
          rw [merged, List.mem_append, List.mem_singleton] at he
          rcases he with old | rfl
          · exact inMerged e old
          · exact inMerged g hg
        have nonzero : g.base.factor ≠ 0 :=
          (NamedUnit.factor_pos fun v hv => positive v (inMerged g hg hv)).ne'
        have ratio : Scalar.powInt ((CompoundUnit.ofNamed f.base).factor
              / (CompoundUnit.ofNamed g.base).factor) f.exponent.val
            * g.base.factor ^ f.exponent.val = f.base.factor ^ f.exponent.val := by
          rw [Scalar.powInt_eq_zpow, CompoundUnit.factor_ofNamed, CompoundUnit.factor_ofNamed]
          rw [← mul_zpow, div_mul_cancel₀ _ nonzero]
        rw [ih (m.append f) inReplaced later, merged, factorProduct_append, factorProduct_cons,
          factorProduct_nil, ← ratio]
        change m.scalar * _ * (factorProduct m.factors * (_ * 1)) * factorProduct fs = _
        ring

/-- What merging takes out of a unit it hands out as a number. -/
theorem mergeSameDimension_factor {u : CompoundUnit Rat} (inside : CompoundUnit.parts u ⊆ us)
    (bound : u.magnitude < 2147483648) :
    (mergeSameDimension u).factor * (mergeSameDimension u).unit.factor = u.factor := by
  have insideBase := CompoundUnit.parts_subset_iff.mp inside
  have accounted := foldl_append_factorProduct positive (⟨[], 1⟩ : MergedFactors Rat) (by simp)
    insideBase
  obtain ⟨gs, factors, replaced, bases⟩ := foldl_append_spec (⟨[], 1⟩ : MergedFactors Rat) u.factors
  rw [List.nil_append] at factors bases
  have insideNew := CompoundUnit.parts_subset_of_bases insideBase bases
  have light : weigh (fun _ => 1) gs < 2147483648 := by
    rw [magnitude_replaces replaced]
    exact bound
  have merged : (mergeSameDimension u).unit.factor = factorProduct gs := by
    rw [mergeSameDimension, factors]
    exact factor_ofFactors oneDefinition positive insideNew light
  rw [factors, factorProduct_nil] at accounted
  rw [merged, CompoundUnit.factor_eq_factorProduct u]
  calc
    (mergeSameDimension u).factor * factorProduct gs
      = 1 * 1 * factorProduct u.factors := accounted
    _ = factorProduct u.factors := by ring

omit oneDefinition positive in
/-- A unit that matches has the same factor, up to the tolerance. -/
theorem matchingUnit?_close {r : UnitRegistry Rat} {u k : CompoundUnit Rat}
    (h : r.matchingUnit? u = some k) : Close k.factor u.factor := by
  rw [UnitRegistry.matchingUnit?] at h
  split at h
  next => cases h
  next =>
    have recognized := List.find?_some h
    exact (sameFactor_iff_close _ _).mp recognized

/-- A number that is expressed in the simplified unit measures the same, up to the tolerance with
which a unit is recognized. -/
theorem simplify_close (r : UnitRegistry Rat) {u : CompoundUnit Rat}
    (inside : CompoundUnit.parts u ⊆ us) (bound : u.magnitude < 2147483648) (x : Rat) :
    Close (x * (r.simplify u).factor * (r.simplify u).unit.factor) (x * u.factor) := by
  have merged := mergeSameDimension_factor oneDefinition positive inside bound
  rcases r.simplify_cases u with ⟨isScalar, same⟩ | ⟨-, same⟩ | ⟨k, matched, same⟩
    | ⟨k, matched, same⟩ | same
  · rw [same, isScalar, CompoundUnit.factor_scalar]
    change Close (x * 1 * 1) (x * 1)
    rw [mul_one, mul_one]
    exact Close.refl x
  · rw [same, CompoundUnit.factor_scalar, mul_one]
    exact Close.refl _
  · rw [same]
    change Close (x * 1 * k.factor) (x * u.factor)
    rw [mul_one]
    exact (matchingUnit?_close matched).mul_left x
  · rw [same, ← merged, ← mul_assoc]
    exact (matchingUnit?_close matched).mul_left _
  · rw [same, mul_assoc, merged]
    exact Close.refl _

end OneDefinition

end QuantityCalculus
