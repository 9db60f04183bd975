/-
Module: QuantityCalculus.Proofs.Units.NormalForm
Layer: Proofs
Purpose: Simplification reaches a normal form.  Merging leaves one unit for each base dimension,
  whatever the unit was, and a second simplification finds nothing to merge or to rename.  It
  changes something only if the first one has led, by exponents that stop at their bounds, to a
  dimensionless product of units.
Imports: QuantityCalculus.Proofs.Dimension.Registry,
  QuantityCalculus.Proofs.Units.SimplifiedDimension
Trusted boundary: none
Main exports: NamedUnit.HasBase, Merged, MergedFactors.append_spec, merged_mergeSameDimension,
  mergeSameDimension_of_merged, UnitRegistry.IsNormal, isNormal_simplify, simplify_simplify,
  simplify_reaches_normal_form
Open obligations: none
-/
import QuantityCalculus.Proofs.Dimension.Registry
import QuantityCalculus.Proofs.Units.SimplifiedDimension

namespace QuantityCalculus

variable {α : Type} [Scalar α]

/-! ### One unit for each base dimension -/

/-- The dimension of a unit on its own is a given base dimension. -/
def NamedUnit.HasBase (v : NamedUnit α) (name : String) : Prop :=
  (CompoundUnit.ofNamed v).dimension.agrees (Dimension.base name) = true

/-- Factors in terms of one unit for each base dimension. -/
def Merged (fs : List (Factor (NamedUnit α))) : Prop :=
  ∀ f ∈ fs, ∀ g ∈ fs, ∀ name, f.base.HasBase name → g.base.HasBase name →
    f.base.symbol = g.base.symbol

/-- A base dimension has a single factor with the exponent one. -/
theorem Dimension.isBase_iff {d : Dimension} :
    d.isBase = true ↔ ∃ name, d = Dimension.base name := by
  constructor
  · intro isBase
    rw [Dimension.isBase] at isBase
    split at isBase
    next f single =>
      obtain ⟨factors⟩ := d
      obtain ⟨name, e⟩ := f
      dsimp only at single isBase
      subst single
      rw [eq_of_beq isBase]
      exact ⟨name, rfl⟩
    next => cases isBase
  · rintro ⟨name, rfl⟩
    rfl

theorem NamedUnit.hasBase_iff {v : NamedUnit α} {name : String} :
    v.HasBase name ↔ (CompoundUnit.ofNamed v).dimension = Dimension.base name :=
  Dimension.agrees_base_iff

theorem NamedUnit.HasBase.isBase {v : NamedUnit α} {name : String} (h : v.HasBase name) :
    (CompoundUnit.ofNamed v).dimension.isBase = true := by
  rw [NamedUnit.hasBase_iff.mp h]
  rfl

/-- Factors whose units stand among those of merged factors are merged as well. -/
theorem Merged.of_bases {fs gs : List (Factor (NamedUnit α))} (merged : Merged fs)
    (bases : ∀ g ∈ gs, ∃ f ∈ fs, g.base = f.base) : Merged gs := by
  intro g hg h hh name hasBase hasBase'
  obtain ⟨f, hf, same⟩ := bases g hg
  obtain ⟨e, he, same'⟩ := bases h hh
  rw [same] at hasBase ⊢
  rw [same'] at hasBase' ⊢
  exact merged f hf e he name hasBase hasBase'

theorem merged_nil : Merged ([] : List (Factor (NamedUnit α))) := by
  intro f hf
  cases hf

theorem merged_singleton (f : Factor (NamedUnit α)) : Merged [f] := by
  intro g hg h hh name _ _
  rw [List.mem_singleton.mp hg, List.mem_singleton.mp hh]

/-! ### The merging of factors -/

/-- A factor is appended as it is if no earlier one of another name has its base dimension, and in
terms of such an earlier one otherwise. -/
theorem MergedFactors.append_spec (m : MergedFactors α) (f : Factor (NamedUnit α)) :
    (m.append f = ⟨m.factors ++ [f], m.scalar⟩
        ∧ ∀ g ∈ m.factors, ∀ name, f.base.HasBase name → g.base.HasBase name →
          g.base.symbol = f.base.symbol)
      ∨ ∃ g ∈ m.factors, (∃ name, f.base.HasBase name ∧ g.base.HasBase name)
        ∧ g.base.symbol ≠ f.base.symbol
        ∧ (m.append f).factors = m.factors ++ [⟨g.base, f.exponent⟩] := by
  rw [MergedFactors.append]
  dsimp only
  split
  next target found =>
    split at found
    next isBase =>
      obtain ⟨name, base⟩ := Dimension.isBase_iff.mp isBase
      obtain ⟨g, first, rfl⟩ := Option.map_eq_some_iff.mp found
      have suitable := List.find?_some first
      rw [Bool.and_eq_true, base] at suitable
      exact .inr ⟨g, List.mem_of_find?_eq_some first,
        ⟨name, NamedUnit.hasBase_iff.mpr base, suitable.2⟩, bne_iff_ne.mp suitable.1, rfl⟩
    next => cases found
  next alone =>
    refine .inl ⟨rfl, fun g hg name hasBase hasBase' => ?_⟩
    rw [if_pos hasBase.isBase, partner?, Option.map_eq_none_iff, List.find?_eq_none] at alone
    by_contra other
    refine alone g hg ((Bool.and_eq_true _ _).mpr ⟨bne_iff_ne.mpr other, ?_⟩)
    rw [NamedUnit.hasBase_iff.mp hasBase]
    exact hasBase'

/-- Appending keeps one unit for each base dimension. -/
theorem MergedFactors.merged_append {m : MergedFactors α} (merged : Merged m.factors)
    (f : Factor (NamedUnit α)) : Merged (m.append f).factors := by
  rcases m.append_spec f with ⟨kept, alone⟩ | ⟨g, hg, -, -, replaced⟩
  · rw [kept]
    intro d hd e he name hasBase hasBase'
    rcases List.mem_append.mp hd with before | last
    · rcases List.mem_append.mp he with before' | last'
      · exact merged d before e before' name hasBase hasBase'
      · rw [List.mem_singleton.mp last'] at hasBase' ⊢
        exact alone d before name hasBase' hasBase
    · rw [List.mem_singleton.mp last] at hasBase ⊢
      rcases List.mem_append.mp he with before' | last'
      · exact (alone e before' name hasBase hasBase').symm
      · rw [List.mem_singleton.mp last']
  · rw [replaced]
    refine merged.of_bases fun d hd => ?_
    rcases List.mem_append.mp hd with before | last
    · exact ⟨d, before, rfl⟩
    · exact ⟨g, hg, by rw [List.mem_singleton.mp last]⟩

theorem MergedFactors.merged_foldl_append {m : MergedFactors α} (merged : Merged m.factors)
    (fs : List (Factor (NamedUnit α))) : Merged (fs.foldl MergedFactors.append m).factors := by
  induction fs generalizing m with
  | nil => exact merged
  | cons f fs ih => exact ih (m.merged_append merged f)

/-- Where each base dimension has one unit already, nothing is replaced. -/
theorem MergedFactors.foldl_append_of_merged {m : MergedFactors α}
    {fs : List (Factor (NamedUnit α))} (merged : Merged (m.factors ++ fs)) :
    fs.foldl MergedFactors.append m = ⟨m.factors ++ fs, m.scalar⟩ := by
  induction fs generalizing m with
  | nil => rw [List.append_nil, List.foldl_nil]
  | cons f fs ih =>
      have kept : m.append f = ⟨m.factors ++ [f], m.scalar⟩ := by
        rcases m.append_spec f with ⟨kept, -⟩ | ⟨g, hg, ⟨name, hasBase, hasBase'⟩, other, -⟩
        · exact kept
        · have same := merged g (List.mem_append_left _ hg) f (by simp) name hasBase' hasBase
          exact absurd same other
      have sides : m.factors ++ f :: fs = m.factors ++ [f] ++ fs := by simp
      rw [sides] at merged ⊢
      rw [List.foldl_cons, kept, ih merged]

/-- Whatever a unit is, merging leaves one unit for each base dimension. -/
theorem merged_mergeSameDimension (u : CompoundUnit α) :
    Merged (mergeSameDimension u).unit.factors := by
  have merged := MergedFactors.merged_foldl_append (m := ⟨[], 1⟩) merged_nil u.factors
  exact merged.of_bases fun g hg => Product.base_mem_ofFactors hg

theorem canonical_mergeSameDimension (u : CompoundUnit α) :
    (mergeSameDimension u).unit.Canonical := Product.canonical_ofFactors _

/-- What has been merged is not changed by merging, and no scalar arises. -/
theorem mergeSameDimension_of_merged {u : CompoundUnit α} (canonical : u.Canonical)
    (merged : Merged u.factors) : mergeSameDimension u = ⟨u, 1⟩ := by
  have kept := MergedFactors.foldl_append_of_merged (m := ⟨[], 1⟩) merged
  rw [List.nil_append] at kept
  rw [mergeSameDimension, kept]
  dsimp only
  rw [canonical.ofFactors_eq]

/-! ### Units that simplification leaves alone -/

namespace UnitRegistry

/-- A unit with nothing to merge that amounts to no registered unit, unless it is a single named
unit itself. -/
structure IsNormal (r : UnitRegistry α) (u : CompoundUnit α) : Prop where
  canonical : u.Canonical
  merged : Merged u.factors
  unmatched : r.matchingUnit? u = none

/-- A unit by itself is in normal form. -/
theorem isNormal_ofNamed (r : UnitRegistry α) (v : NamedUnit α) :
    r.IsNormal (CompoundUnit.ofNamed v) where
  canonical := Product.canonical_ofFactors _
  merged := by
    rw [CompoundUnit.ofNamed_eq]
    exact merged_singleton _
  unmatched := by rw [matchingUnit?, CompoundUnit.asNamed?_ofNamed]

/-- A unit that has a dimension is left alone once nothing is to be merged or renamed. -/
theorem IsNormal.simplify {r : UnitRegistry α} {u : CompoundUnit α} (normal : r.IsNormal u)
    (measures : u.isDimensionless = false) : r.simplify u = ⟨u, 1⟩ := by
  rw [UnitRegistry.simplify]
  split
  next isScalar =>
    have scalar : u = CompoundUnit.scalar := congrArg Product.mk (List.isEmpty_iff.mp isScalar)
    rw [scalar]
  next =>
    rw [measures, normal.unmatched, mergeSameDimension_of_merged normal.canonical normal.merged]
    simp [normal.unmatched]

/-- A unit is simplified to no unit at all, or to one with nothing left to merge or to rename. -/
theorem isNormal_simplify {r : UnitRegistry α} (indexed : r.Indexed) (u : CompoundUnit α) :
    (r.simplify u).unit = CompoundUnit.scalar ∨ r.IsNormal (r.simplify u).unit := by
  have matched : ∀ w k, r.matchingUnit? w = some k → r.IsNormal k := by
    intro w k found
    obtain ⟨v, -, rfl, -⟩ := matchingUnit?_spec indexed found
    exact r.isNormal_ofNamed v
  rw [UnitRegistry.simplify]
  split
  next => exact .inl rfl
  next =>
    split
    next => exact .inl rfl
    next =>
      split
      next k found => exact .inr (matched u k found)
      next =>
        dsimp only
        cases found : r.matchingUnit? (mergeSameDimension u).unit with
        | some k => exact .inr (matched _ k found)
        | none =>
            exact .inr ⟨canonical_mergeSameDimension u, merged_mergeSameDimension u, found⟩

/-- A simplified unit is in terms of one unit for each base dimension. -/
theorem merged_simplify {r : UnitRegistry α} (indexed : r.Indexed) (u : CompoundUnit α) :
    Merged (r.simplify u).unit.factors := by
  rcases isNormal_simplify indexed u with scalar | normal
  · rw [scalar]
    exact merged_nil
  · exact normal.merged

/-- A second simplification changes nothing unless the first one has led to a dimensionless product
of units. -/
theorem simplify_simplify {r : UnitRegistry α} (indexed : r.Indexed) {u : CompoundUnit α}
    (kept : (r.simplify u).unit.isDimensionless = true → u.isDimensionless = true) :
    r.simplify (r.simplify u).unit = ⟨(r.simplify u).unit, 1⟩ := by
  have scalar : (r.simplify u).unit = CompoundUnit.scalar →
      r.simplify (r.simplify u).unit = ⟨(r.simplify u).unit, 1⟩ := by
    intro scalar
    rw [scalar]
    rfl
  rcases isNormal_simplify indexed u with isScalar | normal
  · exact scalar isScalar
  · cases measures : (r.simplify u).unit.isDimensionless with
    | false => exact normal.simplify measures
    | true =>
        refine scalar ?_
        rw [UnitRegistry.simplify, if_pos (kept measures)]
        split <;> rfl

end UnitRegistry

/-- Only a dimensionless unit is simplified to a dimensionless one, if its factors are merged in
range. -/
theorem isDimensionless_of_simplified {r : UnitRegistry α} (indexed : r.Indexed)
    {u : CompoundUnit α} (oneDefinition : OneDefinition (CompoundUnit.parts u ++ r.parts))
    (magnitude : u.magnitude < 2147483648) (extent : u.extent < 2147483648)
    (merges : u.MergesInRange) (simplified : (r.simplify u).unit.isDimensionless = true) :
    u.isDimensionless = true := by
  rw [CompoundUnit.isDimensionless_iff] at simplified ⊢
  intro name
  rw [← simplify_dimensionExponent_of_mergesInRange oneDefinition indexed
    (List.subset_append_right _ _) (List.subset_append_left _ _) magnitude extent merges name]
  exact simplified name

/-- Whatever has been registered and asked: where every name stands for one definition and the
exponents stay in range as they are written and as they are multiplied out, simplification leaves
one unit for each base dimension, and a second simplification changes nothing, exactly if the first
one does not lead from a unit with a dimension to a dimensionless one.  It never does so if the unit
is made of one primitive unit for each base dimension, or if the exponents of the merged unit stay
in range too. -/
theorem simplify_reaches_normal_form {r : UnitRegistry α} {asked : List (SchemeQuestion α)}
    (reached : r.Reached asked) {u : CompoundUnit α}
    (oneDefinition : OneDefinition (CompoundUnit.parts u ++ r.parts))
    (magnitude : u.magnitude < 2147483648) (extent : u.extent < 2147483648) :
    Merged (r.simplify u).unit.factors
      ∧ (r.simplify (r.simplify u).unit = ⟨(r.simplify u).unit, 1⟩
        ↔ ((r.simplify u).unit.isDimensionless = true → u.isDimensionless = true))
      ∧ (u.MergesInRange → r.simplify (r.simplify u).unit = ⟨(r.simplify u).unit, 1⟩) := by
  have indexed := reached.indexed
  refine ⟨UnitRegistry.merged_simplify indexed u,
    ⟨fun settled dimensionless => ?_, UnitRegistry.simplify_simplify indexed⟩, fun merges => ?_⟩
  · -- what is dimensionless is simplified to no unit, so it was no unit before
    apply isDimensionless_of_simplify oneDefinition indexed (List.subset_append_left _ _) magnitude
      extent
    have unchanged := congrArg Simplified.unit settled
    rw [← unchanged, UnitRegistry.simplify, if_pos dimensionless]
    split <;> rfl
  · exact UnitRegistry.simplify_simplify indexed
      (isDimensionless_of_simplified indexed oneDefinition magnitude extent merges)

/-! ### Slabs and feet -/

section Slabs

def rod : NamedUnit Float := .primitive (.ofSymbol "rod") "Length"

/-- A cubic foot for each ell and each rod, which is a length. -/
def slab : NamedUnit Float :=
  .derived (.ofSymbol "slab") 1
    ⟨[⟨foot, ⟨3, by decide, by decide⟩⟩, ⟨ell, Exponent.minusOne⟩, ⟨rod, Exponent.minusOne⟩]⟩

/-- A slab times a power of the foot. -/
def slabBy (e : Exponent) : CompoundUnit Float := ⟨[⟨slab, Exponent.one⟩, ⟨foot, e⟩]⟩

theorem slabBy_oneDefinition (e : Exponent) :
    OneDefinition (CompoundUnit.parts (slabBy e) ++ imperial.parts) := by
  have symbols : ([slab, foot, ell, rod, yard, mile].map NamedUnit.symbol).Nodup := by decide
  have listed : CompoundUnit.parts (slabBy e) ++ imperial.parts
      = [slab, foot, ell, rod, foot, foot, yard, foot, mile, foot] := rfl
  refine OneDefinition.of_symbols symbols ?_
  rw [listed]
  simp

/-- A slab and a foot are merged into two slabs, which stay as they are. -/
theorem slab_by_foot_normal :
    let u := slabBy Exponent.one
    let two : Exponent := ⟨2, by decide, by decide⟩
    imperial.Reached [] ∧ OneDefinition (CompoundUnit.parts u ++ imperial.parts)
      ∧ u.magnitude < 2147483648 ∧ u.extent < 2147483648
      ∧ (mergeSameDimension u).unit.extent < 2147483648
      ∧ (imperial.simplify u).unit = ⟨[⟨slab, two⟩]⟩
      ∧ Merged (imperial.simplify u).unit.factors
      ∧ imperial.simplify (imperial.simplify u).unit = ⟨(imperial.simplify u).unit, 1⟩ := by
  intro u two
  have bounded : (mergeSameDimension u).unit.extent < 2147483648 := by decide
  obtain ⟨merged, -, settled⟩ := simplify_reaches_normal_form imperial_reached
    (slabBy_oneDefinition Exponent.one) (by decide) (by decide)
  exact ⟨imperial_reached, slabBy_oneDefinition _, by decide, by decide, bounded, rfl, merged,
    settled (.inr bounded)⟩

/-- A high negative power of the foot is merged into a power of the slab in which the exponent of
the foot stops at its bound.  What is left of the dimension is nothing, so a second simplification
drops the slabs. -/
theorem slab_by_feet_simplified_twice :
    let u := slabBy ⟨-1073741825, by decide, by decide⟩
    let slabs : CompoundUnit Float := ⟨[⟨slab, ⟨-1073741824, by decide, by decide⟩⟩]⟩
    imperial.Reached [] ∧ OneDefinition (CompoundUnit.parts u ++ imperial.parts)
      ∧ u.magnitude < 2147483648 ∧ u.extent < 2147483648
      ∧ (imperial.simplify u).unit = slabs
      ∧ (imperial.simplify slabs).unit = CompoundUnit.scalar
      ∧ imperial.simplify (imperial.simplify u).unit ≠ ⟨(imperial.simplify u).unit, 1⟩ := by
  intro u slabs
  have once : (imperial.simplify u).unit = slabs := rfl
  have twice : (imperial.simplify slabs).unit = CompoundUnit.scalar := rfl
  refine ⟨imperial_reached, slabBy_oneDefinition _, by decide, by decide, once, twice, ?_⟩
  intro settled
  have unchanged := congrArg Simplified.unit settled
  rw [once, twice] at unchanged
  exact absurd (congrArg (fun v => v.factors.length) unchanged) (by decide)

end Slabs

end QuantityCalculus
