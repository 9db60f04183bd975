/-
Module: QuantityCalculus.Proofs.Units.Definition
Layer: Proofs
Purpose: Named units as trees of definitions.  A function on units that looks at symbols,
  dimensions, factors and exponents is a fold over these trees, so it has one value for each name
  wherever every name stands for one definition.
Imports: QuantityCalculus.Proofs.Product.Names, QuantityCalculus.Proofs.Product.Partial,
  QuantityCalculus.Units.Basic
Trusted boundary: none
Main exports: NamedUnit.inductionOn, NamedUnit.fold, NamedUnit.parts, NamedUnit.bare, OneDefinition,
  OneDefinition.exists_byName, OneDefinition.exists_baseDimension
Open obligations: none
-/
import QuantityCalculus.Proofs.Product.Names
import QuantityCalculus.Proofs.Product.Partial
import QuantityCalculus.Units.Basic

namespace QuantityCalculus

variable {α A : Type}

/-- Induction over definitions: what holds of a unit may be taken from the units that it is defined
by. -/
theorem NamedUnit.inductionOn {P : NamedUnit α → Prop}
    (primitive : ∀ names dimension, P (.primitive names dimension))
    (derived : ∀ names factor (definition : CompoundUnit α),
      (∀ f ∈ definition.factors, P f.base) → P (.derived names factor definition))
    (u : NamedUnit α) : P u := by
  refine @NamedUnit.rec α P (fun p => ∀ f ∈ p.factors, P f.base) (fun fs => ∀ f ∈ fs, P f.base)
    (fun f => P f.base) primitive derived ?product ?nil ?cons ?factor u
  case product => exact fun _ inside => inside
  case nil => simp
  case cons =>
    intro f fs head tail g hg
    rcases List.mem_cons.mp hg with rfl | inTail
    · exact head
    · exact tail g inTail
  case factor => exact fun _ _ inside => inside

mutual

/-- What a unit comes to if `leaf` tells it of primitive units from their symbol and dimension, and
`node` of derived ones from their symbol, their factor and what the factors of their definition come
to. -/
def NamedUnit.fold (leaf : String → String → A) (node : String → α → List (Factor A) → A) :
    NamedUnit α → A
  | .primitive names dimension => leaf names.symbol dimension
  | .derived names factor definition =>
      node names.symbol factor (CompoundUnit.fold leaf node definition)
termination_by structural u => u

/-- The factors of a unit with what their bases come to. -/
def CompoundUnit.fold (leaf : String → String → A) (node : String → α → List (Factor A) → A) :
    CompoundUnit α → List (Factor A)
  | ⟨factors⟩ => foldFactors leaf node factors
termination_by structural u => u

/-- A list of factors with what their bases come to. -/
def foldFactors (leaf : String → String → A) (node : String → α → List (Factor A) → A) :
    List (Factor (NamedUnit α)) → List (Factor A)
  | [] => []
  | ⟨base, exponent⟩ :: rest => ⟨base.fold leaf node, exponent⟩ :: foldFactors leaf node rest
termination_by structural factors => factors

end

/-- A fold treats the factors of a definition one by one. -/
theorem foldFactors_eq_map (leaf : String → String → A) (node : String → α → List (Factor A) → A)
    (fs : List (Factor (NamedUnit α))) :
    foldFactors leaf node fs = fs.map fun f => ⟨f.base.fold leaf node, f.exponent⟩ := by
  induction fs with
  | nil => rfl
  | cons f fs ih => rw [List.map_cons, foldFactors, ih]

/-- A derived unit is folded over its definition. -/
theorem NamedUnit.fold_derived (leaf : String → String → A)
    (node : String → α → List (Factor A) → A) (names : UnitNames) (factor : α)
    (definition : CompoundUnit α) :
    (NamedUnit.derived names factor definition).fold leaf node
      = node names.symbol factor
          (definition.factors.map fun f => ⟨f.base.fold leaf node, f.exponent⟩) := by
  rw [NamedUnit.fold, CompoundUnit.fold, foldFactors_eq_map]

mutual

/-- A unit and all units in its definition, at whatever depth. -/
def NamedUnit.parts : NamedUnit α → List (NamedUnit α)
  | .primitive names dimension => [.primitive names dimension]
  | .derived names factor definition =>
      .derived names factor definition :: CompoundUnit.parts definition
termination_by structural u => u

/-- All units that occur in a unit, at whatever depth. -/
def CompoundUnit.parts : CompoundUnit α → List (NamedUnit α)
  | ⟨factors⟩ => factorParts factors
termination_by structural u => u

/-- All units that occur in a list of factors, at whatever depth. -/
def factorParts : List (Factor (NamedUnit α)) → List (NamedUnit α)
  | [] => []
  | ⟨base, _⟩ :: rest => base.parts ++ factorParts rest
termination_by structural factors => factors

end

theorem factorParts_eq_flatMap (fs : List (Factor (NamedUnit α))) :
    factorParts fs = fs.flatMap fun f => f.base.parts := by
  induction fs with
  | nil => rfl
  | cons f fs ih => rw [List.flatMap_cons, factorParts, ih]

theorem CompoundUnit.parts_eq_flatMap (u : CompoundUnit α) :
    CompoundUnit.parts u = u.factors.flatMap fun f => f.base.parts := by
  rw [CompoundUnit.parts, factorParts_eq_flatMap]

theorem NamedUnit.mem_parts_self (u : NamedUnit α) : u ∈ u.parts := by
  cases u with
  | primitive names dimension => simp [NamedUnit.parts]
  | derived names factor definition => simp [NamedUnit.parts]

theorem CompoundUnit.parts_base_subset {u : CompoundUnit α} {f : Factor (NamedUnit α)}
    (member : f ∈ u.factors) : f.base.parts ⊆ CompoundUnit.parts u := by
  intro v hv
  rw [CompoundUnit.parts_eq_flatMap]
  exact List.mem_flatMap.mpr ⟨f, member, hv⟩

/-- The units of a definition are parts of the unit that is defined. -/
theorem NamedUnit.parts_definition_subset (names : UnitNames) (factor : α)
    (definition : CompoundUnit α) :
    CompoundUnit.parts definition ⊆ (NamedUnit.derived names factor definition).parts := by
  rw [NamedUnit.parts]
  exact List.subset_cons_self _ _

theorem CompoundUnit.ofNamed_eq (b : NamedUnit α) :
    CompoundUnit.ofNamed b = ⟨[⟨b, Exponent.one⟩]⟩ :=
  Product.ofFactors_of_nodup (Product.nodup_names_singleton _)

theorem CompoundUnit.parts_ofNamed (b : NamedUnit α) :
    CompoundUnit.parts (CompoundUnit.ofNamed b) = b.parts := by
  rw [CompoundUnit.ofNamed_eq, CompoundUnit.parts_eq_flatMap]
  simp

/-- The bases of some factors tell which units occur. -/
theorem CompoundUnit.parts_subset_iff {u : CompoundUnit α} {us : List (NamedUnit α)} :
    CompoundUnit.parts u ⊆ us ↔ ∀ f ∈ u.factors, f.base.parts ⊆ us := by
  refine ⟨fun inside f hf => List.Subset.trans (CompoundUnit.parts_base_subset hf) inside, ?_⟩
  intro h v hv
  rw [CompoundUnit.parts_eq_flatMap] at hv
  obtain ⟨f, hf, inside⟩ := List.mem_flatMap.mp hv
  exact h f hf inside

/-- Factors in terms of the bases of other factors have no further parts. -/
theorem CompoundUnit.parts_subset_of_bases {us : List (NamedUnit α)}
    {fs gs : List (Factor (NamedUnit α))} (inside : ∀ f ∈ fs, f.base.parts ⊆ us)
    (bases : ∀ g ∈ gs, ∃ f ∈ fs, g.base = f.base) : ∀ g ∈ gs, g.base.parts ⊆ us := by
  intro g hg
  obtain ⟨f, hf, same⟩ := bases g hg
  rw [same]
  exact inside f hf

theorem CompoundUnit.parts_ofFactors_subset {us : List (NamedUnit α)}
    {fs : List (Factor (NamedUnit α))} (inside : ∀ f ∈ fs, f.base.parts ⊆ us) :
    CompoundUnit.parts (Product.ofFactors fs) ⊆ us :=
  CompoundUnit.parts_subset_iff.mpr
    (CompoundUnit.parts_subset_of_bases inside fun _ => Product.base_mem_ofFactors)

/-! ### Names and definitions -/

/-- A unit without the long names of the units that it consists of, at whatever depth: its symbol
and its definition. -/
def NamedUnit.bare : NamedUnit α → NamedUnit α :=
  NamedUnit.fold (fun symbol dimension => .primitive (.ofSymbol symbol) dimension)
    fun symbol factor fs => .derived (.ofSymbol symbol) factor ⟨fs⟩

/-- Every name stands for one definition. -/
def OneDefinition (us : List (NamedUnit α)) : Prop :=
  ∀ v ∈ us, ∀ w ∈ us, v.symbol = w.symbol → v.bare = w.bare

theorem OneDefinition.mono {us vs : List (NamedUnit α)} (h : OneDefinition us) (subset : vs ⊆ us) :
    OneDefinition vs :=
  fun v hv w hw same => h v (subset hv) w (subset hw) same

theorem OneDefinition.of_symbols {us known : List (NamedUnit α)}
    (nodup : (known.map NamedUnit.symbol).Nodup) (subset : us ⊆ known) : OneDefinition us :=
  fun _ hv _ hw same =>
    congrArg NamedUnit.bare (List.inj_on_of_nodup_map nodup (subset hv) (subset hw) same)

/-- Long names do not count in a fold. -/
theorem NamedUnit.fold_bare (leaf : String → String → A) (node : String → α → List (Factor A) → A)
    (u : NamedUnit α) : u.bare.fold leaf node = u.fold leaf node := by
  induction u using NamedUnit.inductionOn with
  | primitive names dimension => rfl
  | derived names factor definition ih =>
      rw [NamedUnit.bare, NamedUnit.fold_derived, NamedUnit.fold_derived, NamedUnit.fold_derived,
        List.map_map]
      refine congrArg (node _ _) (List.map_congr_left fun f hf => ?_)
      exact congrArg (fun a => (⟨a, f.exponent⟩ : Factor A)) (ih f hf)

theorem NamedUnit.fold_eq_of_bare {v w : NamedUnit α} (same : v.bare = w.bare)
    (leaf : String → String → A) (node : String → α → List (Factor A) → A) :
    v.fold leaf node = w.fold leaf node := by
  rw [← v.fold_bare, ← w.fold_bare, same]

/-- Where every name stands for one definition, a fold is a function of the name. -/
theorem OneDefinition.exists_byName {us : List (NamedUnit α)} (h : OneDefinition us) [Inhabited A]
    (leaf : String → String → A) (node : String → α → List (Factor A) → A) :
    ∃ byName : String → A, ∀ v ∈ us, byName v.symbol = v.fold leaf node := by
  refine ⟨fun name => ((us.find? fun v => v.symbol == name).map (·.fold leaf node)).getD default,
    fun v hv => ?_⟩
  cases found : us.find? fun w => w.symbol == v.symbol with
  | none => exact absurd (List.find?_eq_none.mp found v hv) (by simp)
  | some w =>
      have same : w.symbol = v.symbol := by simpa using List.find?_some found
      have one := h w (List.mem_of_find?_eq_some found) v hv same
      simp [found, NamedUnit.fold_eq_of_bare one]

/-- What base dimension a unit measures, if it is a primitive one, is a function of its name. -/
theorem OneDefinition.exists_baseDimension {us : List (NamedUnit α)} (h : OneDefinition us) :
    ∃ dimensionOf : String → Option String, ∀ v ∈ us, v.baseDimension? = dimensionOf v.symbol := by
  obtain ⟨dimensionOf, byName⟩ :=
    h.exists_byName (fun _ dimension => some dimension) (fun _ _ _ => none)
  refine ⟨dimensionOf, fun v hv => ?_⟩
  rw [byName v hv]
  cases v with
  | primitive names dimension => rfl
  | derived names factor definition => rfl

/-- Primitive units of one name measure one dimension, and no derived unit has their name. -/
theorem OneDefinition.baseDimension?_eq {us : List (NamedUnit α)} (h : OneDefinition us)
    {v w : NamedUnit α} (hv : v ∈ us) (hw : w ∈ us) (same : v.symbol = w.symbol) :
    v.baseDimension? = w.baseDimension? := by
  obtain ⟨dimensionOf, byName⟩ := h.exists_baseDimension
  rw [byName v hv, byName w hw, same]

end QuantityCalculus
