/-
Module: QuantityCalculus.Proofs.Units.History
Layer: Proofs
Purpose: What a registry remembers of earlier questions about schemes, over every history of
  registrations and questions.  Lists of names, of dimensions and of units are always those of the
  entries.  A remembered closest unit is the one for some source unit that was asked about, so it is
  the one for the source at hand as long as sources of the same names and exponents have the same
  conversion factor.
Imports: QuantityCalculus.Proofs.Units.Registry, QuantityCalculus.Scalar.Double,
  QuantityCalculus.Units.Scheme
Trusted boundary: none
Main exports: SchemeQuestion, UnitRegistry.ask, UnitRegistry.Reached, UnitRegistry.Remembers,
  ask_catalog, Remembers.ask, Reached.remembers, Reached.indexed, closestUnit_eq_unremembered
Open obligations: none
-/
import QuantityCalculus.Proofs.Units.Registry
import QuantityCalculus.Scalar.Double
import QuantityCalculus.Units.Scheme

namespace QuantityCalculus

/-! ### Signatures -/

theorem Exponent.beq_eq_val (a b : Exponent) : (a == b) = (a.val == b.val) := by
  rw [Bool.eq_iff_iff, beq_iff_eq, beq_iff_eq]
  exact ⟨congrArg Exponent.val, Exponent.ext_val⟩

namespace Product

variable {β : Type} [Keyed β]

/-- Products of one signature have the same factors, in whatever order. -/
theorem perm_of_signature {p q : Product β} (same : p.signature = q.signature) :
    (p.factors.map fun f => (key f.base, f.exponent.val)).Perm
      (q.factors.map fun f => (key f.base, f.exponent.val)) := by
  have sorted := sortBy_perm signatureLE (p.factors.map fun f => (key f.base, f.exponent.val))
  rw [← signature, same] at sorted
  exact sorted.symm.trans (sortBy_perm signatureLE _)

/-- Whether a product agrees with another one depends on the signature of the latter only. -/
theorem agrees_congr {p q : Product β} (same : p.signature = q.signature) (r : Product β) :
    r.agrees p = r.agrees q := by
  have perm := perm_of_signature same
  have size : p.size = q.size := by simpa [Product.size] using perm.length_eq
  have found : ∀ f : Factor β,
      (p.factors.any fun g => f.agrees g) = q.factors.any fun g => f.agrees g := by
    intro f
    have byKey := perm.any_eq (f := fun k => key f.base == k.1 && f.exponent.val == k.2)
    simpa [List.any_map, Function.comp_def, Factor.agrees, Exponent.beq_eq_val] using byKey
  simp [agrees, size, found]

end Product

/-! ### Histories -/

/-- What a registry may be asked about its schemes. -/
inductive SchemeQuestion (α : Type) where
  | names
  | units (scheme : String) (dimension : Dimension)
  | dimensions (scheme : String)
  | closest (source : CompoundUnit α) (scheme : String) (dimension : Dimension)

namespace UnitRegistry

variable {α : Type} [Scalar α] {r r' : UnitRegistry α} {asked : List (SchemeQuestion α)}

/-- The registry after a question. -/
def ask (r : UnitRegistry α) : SchemeQuestion α → UnitRegistry α
  | .names => r.schemeNames.2
  | .units scheme dimension => (r.unitsFor scheme dimension).2
  | .dimensions scheme => (r.schemeDimensions scheme).2
  | .closest source scheme dimension => (r.closestUnit source scheme dimension).2

/-- A registry that registrations and questions, in any order, lead to, with the questions since the
last registration, the last one first.  A refused registration leads to no registry. -/
inductive Reached : UnitRegistry α → List (SchemeQuestion α) → Prop where
  | empty : Reached empty []
  | addPrimitive {r r' : UnitRegistry α} {asked : List (SchemeQuestion α)} {unit : NamedUnit α}
      {schemes : List String} {u : CompoundUnit α} (before : Reached r asked)
      (added : r.addPrimitive unit schemes = .ok (u, r')) : Reached r' []
  | addDerived {r r' : UnitRegistry α} {asked : List (SchemeQuestion α)} {unit : NamedUnit α}
      {schemes : List String} {u : CompoundUnit α} (before : Reached r asked)
      (added : r.addDerived unit schemes = .ok (u, r')) : Reached r' []
  | ask {r : UnitRegistry α} {asked : List (SchemeQuestion α)} (before : Reached r asked)
      (question : SchemeQuestion α) : Reached (r.ask question) (question :: asked)
  | copy {r : UnitRegistry α} {asked : List (SchemeQuestion α)} (before : Reached r asked) :
      Reached r.copy []

/-- A unit is the closest one for a source that was asked about and has the names and exponents of
the source at hand. -/
def ClosestFor (r : UnitRegistry α) (asked : List (SchemeQuestion α)) (source : CompoundUnit α)
    (scheme : String) (dimension : Dimension) (answer : Option (CompoundUnit α)) : Prop :=
  ∃ earlier alike, SchemeQuestion.closest earlier scheme alike ∈ asked
    ∧ earlier.signature = source.signature ∧ alike.signature = dimension.signature
    ∧ answer = closestOf (r.currentUnitsFor scheme dimension) earlier.factor

/-- What is remembered is what the entries lead to. -/
structure Remembers (r : UnitRegistry α) (asked : List (SchemeQuestion α)) : Prop where
  schemeNames : ∀ names, r.memory.schemeNames = some names → names = r.currentSchemeNames
  units : ∀ scheme dimension units,
    r.memory.units.lookup (scheme, Product.signature dimension) = some units →
      units = r.currentUnitsFor scheme dimension
  dimensions : ∀ scheme dimensions, r.memory.dimensions.lookup scheme = some dimensions →
    dimensions = r.currentSchemeDimensions scheme
  closest : ∀ source scheme dimension answer,
    r.memory.closest.lookup ⟨Product.signature source, scheme, Product.signature dimension⟩
        = some answer →
      r.ClosestFor asked source scheme dimension answer

/-- Units are listed by the signature of their dimension. -/
theorem currentUnitsFor_congr (r : UnitRegistry α) (scheme : String) {d e : Dimension}
    (same : d.signature = e.signature) :
    r.currentUnitsFor scheme d = r.currentUnitsFor scheme e := by
  simp only [currentUnitsFor, Product.agrees_congr same]

/-- An answer remains one for an earlier question, however many are asked later. -/
theorem ClosestFor.cons {source : CompoundUnit α} {scheme : String} {dimension : Dimension}
    {answer : Option (CompoundUnit α)} (h : r.ClosestFor asked source scheme dimension answer)
    (question : SchemeQuestion α) :
    r.ClosestFor (question :: asked) source scheme dimension answer := by
  obtain ⟨earlier, alike, member, rest⟩ := h
  exact ⟨earlier, alike, List.mem_cons_of_mem _ member, rest⟩

theorem Remembers.cons (h : r.Remembers asked) (question : SchemeQuestion α) :
    r.Remembers (question :: asked) :=
  { h with closest := fun source scheme dimension answer found =>
      (h.closest source scheme dimension answer found).cons question }

/-- Where nothing is remembered, nothing wrong is. -/
theorem remembers_of_memory (forgotten : r.memory = SchemeMemory.empty) : r.Remembers asked where
  schemeNames := by simp [forgotten, SchemeMemory.empty]
  units := by simp [forgotten, SchemeMemory.empty]
  dimensions := by simp [forgotten, SchemeMemory.empty]
  closest := by simp [forgotten, SchemeMemory.empty]

/-! ### One question -/

omit [Scalar α] in
theorem schemeNames_catalog (r : UnitRegistry α) : r.schemeNames.2.catalog = r.catalog := by
  rw [UnitRegistry.schemeNames]
  split <;> rfl

theorem unitsFor_catalog (r : UnitRegistry α) (scheme : String) (dimension : Dimension) :
    (r.unitsFor scheme dimension).2.catalog = r.catalog := by
  rw [UnitRegistry.unitsFor]
  split <;> rfl

theorem schemeDimensions_catalog (r : UnitRegistry α) (scheme : String) :
    (r.schemeDimensions scheme).2.catalog = r.catalog := by
  rw [UnitRegistry.schemeDimensions]
  split <;> rfl

/-- To ask for the closest unit registers nothing. -/
theorem closestUnit_catalog (r : UnitRegistry α) (source : CompoundUnit α) (scheme : String)
    (dimension : Dimension) : (r.closestUnit source scheme dimension).2.catalog = r.catalog := by
  rw [UnitRegistry.closestUnit]
  split
  next => rfl
  next => exact r.unitsFor_catalog scheme dimension

/-- A question changes what is remembered only. -/
theorem ask_catalog (r : UnitRegistry α) (question : SchemeQuestion α) :
    (r.ask question).catalog = r.catalog := by
  cases question with
  | names => exact r.schemeNames_catalog
  | units scheme dimension => exact r.unitsFor_catalog scheme dimension
  | dimensions scheme => exact r.schemeDimensions_catalog scheme
  | closest source scheme dimension => exact r.closestUnit_catalog source scheme dimension

/-- What is found in a list of answers is the first one, or is found further on. -/
theorem lookup_cons_cases {κ ν : Type} [BEq κ] [LawfulBEq κ] {question other : κ} {told answer : ν}
    {rest : List (κ × ν)} (found : ((question, told) :: rest).lookup other = some answer) :
    (other = question ∧ answer = told) ∨ rest.lookup other = some answer := by
  by_cases same : other = question
  · simp only [List.lookup_cons, same, beq_self_eq_true, Option.some.injEq] at found
    exact .inl ⟨same, found.symm⟩
  · simp only [List.lookup_cons, beq_eq_false_iff_ne.mpr same] at found
    exact .inr found

/-- The names of the schemes are those of the entries, whatever has been asked. -/
theorem Remembers.schemeNames_spec (h : r.Remembers asked) :
    r.schemeNames.1 = r.currentSchemeNames ∧ r.schemeNames.2.Remembers asked := by
  rw [UnitRegistry.schemeNames]
  split
  next names told => exact ⟨h.schemeNames names told, h⟩
  next => exact ⟨rfl, { h with schemeNames := fun names told => (Option.some.inj told).symm }⟩

/-- The dimensions of a scheme are those of the entries, whatever has been asked. -/
theorem Remembers.schemeDimensions_spec (h : r.Remembers asked) (scheme : String) :
    (r.schemeDimensions scheme).1 = r.currentSchemeDimensions scheme
      ∧ (r.schemeDimensions scheme).2.Remembers asked := by
  rw [UnitRegistry.schemeDimensions]
  split
  next dimensions found => exact ⟨h.dimensions scheme dimensions found, h⟩
  next =>
    refine ⟨rfl, { h with dimensions := fun other dimensions found => ?_ }⟩
    rcases lookup_cons_cases found with ⟨rfl, rfl⟩ | before
    · rfl
    · exact h.dimensions other dimensions before

/-- The units of a scheme are those of the entries, whatever has been asked. -/
theorem Remembers.unitsFor_spec (h : r.Remembers asked) (scheme : String) (dimension : Dimension) :
    (r.unitsFor scheme dimension).1 = r.currentUnitsFor scheme dimension
      ∧ (r.unitsFor scheme dimension).2.Remembers asked := by
  rw [UnitRegistry.unitsFor]
  dsimp only
  split
  next units found => exact ⟨h.units scheme dimension units found, h⟩
  next =>
    refine ⟨rfl, { h with units := fun other d units found => ?_ }⟩
    rcases lookup_cons_cases found with ⟨same, rfl⟩ | before
    · obtain ⟨rfl, signature⟩ := Prod.mk.inj same
      exact (r.currentUnitsFor_congr other signature).symm
    · exact h.units other d units before

/-- A closest unit is the one for a source that was asked about, be it now or before. -/
theorem Remembers.closestUnit_spec (h : r.Remembers asked) (source : CompoundUnit α)
    (scheme : String)
    (dimension : Dimension) :
    r.ClosestFor (.closest source scheme dimension :: asked) source scheme dimension
        (r.closestUnit source scheme dimension).1
      ∧ (r.closestUnit source scheme dimension).2.Remembers
          (.closest source scheme dimension :: asked) := by
  rw [UnitRegistry.closestUnit]
  dsimp only
  split
  next answer found =>
    exact ⟨(h.closest source scheme dimension answer found).cons _, h.cons _⟩
  next =>
    obtain ⟨listed, next⟩ := h.unitsFor_spec scheme dimension
    have catalog := r.unitsFor_catalog scheme dimension
    generalize r.unitsFor scheme dimension = answered at listed next catalog ⊢
    obtain ⟨units, entries, memory⟩ := answered
    dsimp only at listed catalog
    subst listed catalog
    refine ⟨⟨source, dimension, List.mem_cons_self, rfl, rfl, rfl⟩,
      { next.cons (.closest source scheme dimension) with
        closest := fun other place d answer found => ?_ }⟩
    rcases lookup_cons_cases found with ⟨same, rfl⟩ | before
    · obtain ⟨names, rfl, signature⟩ := ClosestQuestion.mk.inj same
      refine ⟨source, dimension, List.mem_cons_self, names.symm, signature.symm, ?_⟩
      exact congrArg (closestOf · source.factor) (r.currentUnitsFor_congr place signature).symm
    · exact (next.closest other place d answer before).cons _

/-- After a question, nothing wrong is remembered. -/
theorem Remembers.ask (h : r.Remembers asked) (question : SchemeQuestion α) :
    (r.ask question).Remembers (question :: asked) := by
  cases question with
  | names => exact h.schemeNames_spec.2.cons _
  | units scheme dimension => exact (h.unitsFor_spec scheme dimension).2.cons _
  | dimensions scheme => exact (h.schemeDimensions_spec scheme).2.cons _
  | closest source scheme dimension => exact (h.closestUnit_spec source scheme dimension).2

/-! ### All histories -/

/-- Whatever is registered and asked, each answer that is remembered was right for a question like
it. -/
theorem Reached.remembers (reached : r.Reached asked) : r.Remembers asked := by
  induction reached with
  | empty => exact remembers_of_memory rfl
  | addPrimitive _ added =>
      obtain ⟨-, -, -, -, -, forgotten⟩ := addPrimitive_spec added
      exact remembers_of_memory forgotten
  | addDerived _ added => exact remembers_of_memory (addDerived_spec added).2
  | ask _ question ih => exact ih.ask question
  | copy => exact remembers_of_memory rfl

theorem Indexed.of_catalog (indexed : r.Indexed) (same : r'.catalog = r.catalog) : r'.Indexed := by
  obtain ⟨base, derived, nodup⟩ := indexed
  rw [← same] at base derived nodup
  exact ⟨base, derived, nodup⟩

/-- Every history leads to a registry in which each entry is a unit of its own name. -/
theorem Reached.indexed (reached : r.Reached asked) : r.Indexed := by
  induction reached with
  | empty => exact wellFormed_empty.indexed
  | addPrimitive _ added ih => exact indexed_addPrimitive ih added
  | addDerived _ added ih => exact indexed_addDerived ih added
  | ask _ question ih => exact ih.of_catalog (ask_catalog _ question)
  | copy _ ih => exact ih.of_catalog rfl

/-- Whatever has been registered and asked, the closest unit is the one that a registry with the
same entries and no memory gives, as long as no other source of the same names and exponents, but
with another conversion factor, has been asked about since the last registration. -/
theorem closestUnit_eq_unremembered (reached : r.Reached asked) {source : CompoundUnit α}
    {scheme : String} {dimension : Dimension}
    (oneFactor : ∀ earlier alike, SchemeQuestion.closest earlier scheme alike ∈ asked →
      earlier.signature = source.signature → alike.signature = dimension.signature →
        earlier.factor = source.factor) :
    (r.closestUnit source scheme dimension).1 = (r.copy.closestUnit source scheme dimension).1 := by
  obtain ⟨⟨earlier, alike, member, names, signature, answer⟩, -⟩ :=
    reached.remembers.closestUnit_spec source scheme dimension
  have factor : earlier.factor = source.factor := by
    rcases List.mem_cons.mp member with now | before
    · rw [(SchemeQuestion.closest.inj now).1]
    · exact oneFactor earlier alike before names signature
  rw [answer, factor]
  rfl

end UnitRegistry

/-! ### Two yards -/

section Yards

def foot : NamedUnit Float := .primitive (.ofSymbol "ft") "Length"
def yard : NamedUnit Float := .derived (.ofSymbol "yd") 3 (CompoundUnit.ofNamed foot)
def mile : NamedUnit Float := .derived (.ofSymbol "mi") 5280 (CompoundUnit.ofNamed foot)

/-- A unit that is called like the yard and is as long as a mile. -/
def longYard : CompoundUnit Float :=
  CompoundUnit.ofNamed (.derived (.ofSymbol "yd") 5280 (CompoundUnit.ofNamed foot))

/-- Feet, yards and miles in a scheme of their own. -/
def imperial : UnitRegistry Float where
  catalog :=
    { base := [⟨"ft", ⟨CompoundUnit.ofNamed foot, ["Imperial"]⟩⟩]
      derived := [yard, mile].map fun unit =>
        ⟨unit.symbol, ⟨[⟨"ft", Exponent.one⟩]⟩, ⟨CompoundUnit.ofNamed unit, ["Imperial"]⟩⟩ }
  memory := SchemeMemory.empty

theorem imperial_reached : imperial.Reached [] := by
  have feet : UnitRegistry.empty.addPrimitive foot ["Imperial"]
      = .ok (CompoundUnit.ofNamed foot, ⟨{ imperial.catalog with derived := [] }, .empty⟩) := rfl
  have yards : UnitRegistry.addDerived ⟨{ imperial.catalog with derived := [] }, .empty⟩ yard
        ["Imperial"]
      = .ok (CompoundUnit.ofNamed yard,
          ⟨{ imperial.catalog with derived := imperial.catalog.derived.take 1 }, .empty⟩) := rfl
  have miles : UnitRegistry.addDerived
        ⟨{ imperial.catalog with derived := imperial.catalog.derived.take 1 }, .empty⟩ mile
        ["Imperial"]
      = .ok (CompoundUnit.ofNamed mile, imperial) := rfl
  exact .addDerived (.addDerived (.addPrimitive .empty feet) yards) miles

/-- The question for the imperial unit that is closest to the yard. -/
def closestToYard : SchemeQuestion Float :=
  .closest (CompoundUnit.ofNamed yard) "Imperial" (Dimension.base "Length")

/-- Asked about once more, the yard gets the answer that it would get from a registry without a
memory. -/
theorem closest_to_yard_unremembered :
    let asked := imperial.ask closestToYard
    let source : CompoundUnit Float := CompoundUnit.ofNamed yard
    asked.Reached [closestToYard]
      ∧ (∀ earlier alike, SchemeQuestion.closest earlier "Imperial" alike ∈ [closestToYard] →
          earlier.signature = source.signature →
            alike.signature = (Dimension.base "Length").signature → earlier.factor = source.factor)
      ∧ (asked.closestUnit source "Imperial" (Dimension.base "Length")).1
          = (asked.copy.closestUnit source "Imperial" (Dimension.base "Length")).1 := by
  have reached := UnitRegistry.Reached.ask imperial_reached closestToYard
  have oneFactor :
      ∀ earlier alike, SchemeQuestion.closest earlier "Imperial" alike ∈ [closestToYard] →
      earlier.signature = (CompoundUnit.ofNamed yard).signature →
        alike.signature = (Dimension.base "Length").signature →
          earlier.factor = (CompoundUnit.ofNamed yard).factor := by
    intro earlier alike member _ _
    rw [(SchemeQuestion.closest.inj (List.mem_singleton.mp member)).1]
  exact ⟨reached, oneFactor, UnitRegistry.closestUnit_eq_unremembered reached oneFactor⟩

/-- Once the yard has been asked about, a unit that only shares its name is told to be closest to
the yard, whereas the mile is closest. -/
theorem closest_to_longYard_remembered :
    let asked := imperial.ask closestToYard
    let symbol := fun answer : Option (CompoundUnit Float) =>
      (answer.bind CompoundUnit.asNamed?).map NamedUnit.symbol
    asked.Reached [closestToYard]
      ∧ symbol (asked.closestUnit longYard "Imperial" (Dimension.base "Length")).1 = some "yd"
      ∧ symbol (asked.copy.closestUnit longYard "Imperial" (Dimension.base "Length")).1 = some "mi"
      ∧ (asked.closestUnit longYard "Imperial" (Dimension.base "Length")).1
        ≠ (asked.copy.closestUnit longYard "Imperial" (Dimension.base "Length")).1 := by
  intro asked symbol
  have before : symbol (asked.closestUnit longYard "Imperial" (Dimension.base "Length")).1
      = some "yd" := by decide +kernel
  have fresh : symbol (asked.copy.closestUnit longYard "Imperial" (Dimension.base "Length")).1
      = some "mi" := by decide +kernel
  refine ⟨.ask imperial_reached closestToYard, before, fresh, fun same => ?_⟩
  rw [same, fresh] at before
  exact absurd before (by decide)

end Yards

end QuantityCalculus
