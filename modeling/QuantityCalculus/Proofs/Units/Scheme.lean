/-
Module: QuantityCalculus.Proofs.Units.Scheme
Layer: Proofs
Purpose: The memory of a registry cannot be noticed.  Over every sequence of registrations, whether
  they succeed or not, and questions, the schemes, the units of a scheme and the dimensions of a
  scheme are told exactly as the current entries have them, each once and in a fixed order.
Imports: QuantityCalculus.Proofs.Order.Listing, QuantityCalculus.Proofs.Product.Algebra,
  QuantityCalculus.Proofs.Units.History
Trusted boundary: none
Main exports: RegistryAction, UnitRegistry.perform, UnitRegistry.performAll,
  UnitRegistry.questionsSince, UnitRegistry.Reached.performAll, UnitRegistry.exists_reached,
  UnitRegistry.TellsEntries, Remembers.tellsEntries, scheme_answers_follow_entries
Open obligations: none
-/
import QuantityCalculus.Proofs.Order.Listing
import QuantityCalculus.Proofs.Product.Algebra
import QuantityCalculus.Proofs.Units.History

namespace QuantityCalculus

/-- Units of different names do not agree. -/
theorem CompoundUnit.agrees_ofNamed {α : Type} {v w : NamedUnit α}
    (different : v.symbol ≠ w.symbol) :
    (CompoundUnit.ofNamed v).agrees (CompoundUnit.ofNamed w) = false := by
  simp [CompoundUnit.ofNamed_eq, Product.agrees, Product.size, Factor.agrees, Keyed.key, different]

/-! ### Histories in which registrations may fail -/

/-- What can be done to a registry. -/
inductive RegistryAction (α : Type) where
  | addPrimitive (unit : NamedUnit α) (schemes : List String)
  | addDerived (unit : NamedUnit α) (schemes : List String)
  | ask (question : SchemeQuestion α)
  | copy

namespace UnitRegistry

variable {α : Type} [Scalar α]

/-- The registry after a registration.  One that is refused changes nothing. -/
def afterwards (r : UnitRegistry α)
    (answer : Except UnitRegistryError (CompoundUnit α × UnitRegistry α)) : UnitRegistry α :=
  match answer with
  | .ok (_, after) => after
  | .error _ => r

/-- The registry after an action. -/
def perform (r : UnitRegistry α) : RegistryAction α → UnitRegistry α
  | .addPrimitive unit schemes => r.afterwards (r.addPrimitive unit schemes)
  | .addDerived unit schemes => r.afterwards (r.addDerived unit schemes)
  | .ask question => r.ask question
  | .copy => r.copy

/-- The registry after several actions. -/
def performAll (r : UnitRegistry α) (actions : List (RegistryAction α)) : UnitRegistry α :=
  actions.foldl perform r

omit [Scalar α] in
/-- A registration has succeeded, or the registry is as it was before. -/
theorem afterwards_cases (r : UnitRegistry α)
    (answer : Except UnitRegistryError (CompoundUnit α × UnitRegistry α)) :
    (∃ u, answer = .ok (u, r.afterwards answer)) ∨ r.afterwards answer = r := by
  cases answer with
  | ok added => exact .inl ⟨added.1, rfl⟩
  | error e => exact .inr rfl

/-- The questions since the last registration that succeeded, after one more action.  A copy has not
been asked anything. -/
def questionsAfter (r : UnitRegistry α) (asked : List (SchemeQuestion α)) :
    RegistryAction α → List (SchemeQuestion α)
  | .addPrimitive unit schemes => if (r.addPrimitive unit schemes).isOk then [] else asked
  | .addDerived unit schemes => if (r.addDerived unit schemes).isOk then [] else asked
  | .ask question => question :: asked
  | .copy => []

/-- The questions since the last registration that succeeded, after several actions. -/
def questionsSince (r : UnitRegistry α) (asked : List (SchemeQuestion α)) :
    List (RegistryAction α) → List (SchemeQuestion α)
  | [] => asked
  | action :: rest => (r.perform action).questionsSince (r.questionsAfter asked action) rest

/-- Every action leads from a registry that was reached to another one. -/
theorem Reached.perform {r : UnitRegistry α} {asked : List (SchemeQuestion α)}
    (before : r.Reached asked) (action : RegistryAction α) :
    (r.perform action).Reached (r.questionsAfter asked action) := by
  cases action with
  | addPrimitive unit schemes =>
      rw [UnitRegistry.perform, questionsAfter]
      cases answer : r.addPrimitive unit schemes with
      | ok added => exact .addPrimitive before answer
      | error e => exact before
  | addDerived unit schemes =>
      rw [UnitRegistry.perform, questionsAfter]
      cases answer : r.addDerived unit schemes with
      | ok added => exact .addDerived before answer
      | error e => exact before
  | ask question => exact .ask before question
  | copy => exact .copy before

/-- Whatever is done to a registry, the registrations that succeed and the questions lead to the
same one. -/
theorem Reached.performAll {r : UnitRegistry α} {asked : List (SchemeQuestion α)}
    (before : r.Reached asked) (actions : List (RegistryAction α)) :
    (r.performAll actions).Reached (r.questionsSince asked actions) := by
  induction actions generalizing r asked with
  | nil => exact before
  | cons action rest ih => exact ih (before.perform action)

theorem exists_reached (actions : List (RegistryAction α)) :
    ∃ asked, (empty.performAll actions : UnitRegistry α).Reached asked :=
  ⟨_, Reached.empty.performAll actions⟩

/-! ### What the entries lead to -/

section Current

variable (r : UnitRegistry α)

omit [Scalar α] in
theorem mem_entriesIn {scheme : String} {e : String × UnitEntry α} :
    e ∈ r.entriesIn scheme ↔ e ∈ r.entries ∧ scheme ∈ e.2.schemes := by
  simp [entriesIn]

omit [Scalar α] in
/-- The schemes are those that entries mention. -/
theorem mem_currentSchemeNames {scheme : String} :
    scheme ∈ r.currentSchemeNames ↔ ∃ e ∈ r.entries, scheme ∈ e.2.schemes := by
  rw [currentSchemeNames, ← List.mem_flatMap]
  constructor
  · intro mem
    exact (mem_foldl_appendNew _ mem).resolve_left List.not_mem_nil
  · intro mem
    obtain ⟨name, told, same⟩ := exists_mem_foldl_appendNew (· == ·) (by simp) [] mem
    rwa [← beq_iff_eq.mp same]

omit [Scalar α] in
theorem nodup_currentSchemeNames : r.currentSchemeNames.Nodup :=
  (pairwise_foldl_appendNew (· == ·) _ .nil).imp fun different => by simpa using different

/-- The units of a scheme for a dimension are picked from the entries one by one. -/
theorem currentUnitsFor_eq_filter (scheme : String) (dimension : Dimension) :
    r.currentUnitsFor scheme dimension
      = (r.entries.filter fun e => scheme ∈ e.2.schemes
          ∧ e.2.unit.dimension.factors.Perm dimension.factors).map fun e => e.2.unit := by
  rw [currentUnitsFor, entriesIn, List.filter_map, List.filter_filter]
  refine congrArg (List.map _) (List.filter_congr fun e _ => ?_)
  have perm := Product.agrees_iff_perm (q := dimension) e.2.unit.dimension_canonical.nodup
  rw [Bool.eq_iff_iff]
  simp only [Bool.and_eq_true, Function.comp_apply, List.contains_iff_mem, decide_eq_true_iff, perm]
  exact and_comm

theorem currentSchemeDimensions_perm (scheme : String) :
    (r.currentSchemeDimensions scheme).Perm
      (((r.entriesIn scheme).map fun e => e.2.unit.dimension).foldl
        (appendNew Product.agrees) []) :=
  sortBy_perm _ _

theorem mem_currentSchemeDimensions {scheme : String} {d : Dimension}
    (mem : d ∈ r.currentSchemeDimensions scheme) :
    ∃ e ∈ r.entriesIn scheme, e.2.unit.dimension = d := by
  have listed := (r.currentSchemeDimensions_perm scheme).mem_iff.mp mem
  exact List.mem_map.mp ((mem_foldl_appendNew _ listed).resolve_left List.not_mem_nil)

theorem currentSchemeDimensions_canonical {scheme : String} {d : Dimension}
    (mem : d ∈ r.currentSchemeDimensions scheme) : d.Canonical := by
  obtain ⟨e, -, rfl⟩ := r.mem_currentSchemeDimensions mem
  exact e.2.unit.dimension_canonical

/-- Every entry of a scheme has its dimension listed. -/
theorem exists_mem_currentSchemeDimensions {scheme : String} {e : String × UnitEntry α}
    (entered : e ∈ r.entriesIn scheme) :
    ∃ d ∈ r.currentSchemeDimensions scheme, d.factors.Perm e.2.unit.dimension.factors := by
  obtain ⟨d, listed, same⟩ := exists_mem_foldl_appendNew Product.agrees Product.agrees_self []
    (List.mem_map_of_mem (f := fun e => e.2.unit.dimension) entered)
  have mem := (r.currentSchemeDimensions_perm scheme).mem_iff.mpr listed
  exact ⟨d, mem, (Product.agrees_iff_perm (r.currentSchemeDimensions_canonical mem).nodup).mp same⟩

/-- No dimension is listed twice, in whatever order its factors stand. -/
theorem pairwise_currentSchemeDimensions (scheme : String) :
    (r.currentSchemeDimensions scheme).Pairwise fun d e => ¬ d.factors.Perm e.factors := by
  have perm := r.currentSchemeDimensions_perm scheme
  refine (perm.pairwise_iff fun different same => different same.symm).mpr ?_
  refine (pairwise_foldl_appendNew Product.agrees _ .nil).imp_of_mem ?_
  intro d e listed _ different same
  have canonical := r.currentSchemeDimensions_canonical (perm.mem_iff.mpr listed)
  rw [(Product.agrees_iff_perm canonical.nodup).mpr same] at different
  cases different

theorem pairwise_cardinality_currentSchemeDimensions (scheme : String) :
    (r.currentSchemeDimensions scheme).Pairwise fun d e => d.cardinality ≤ e.cardinality :=
  pairwise_sortBy Dimension.cardinality _

/-- No two entries have the same unit, so no unit is listed twice. -/
theorem Indexed.pairwise_currentUnitsFor {r : UnitRegistry α} (indexed : r.Indexed)
    (scheme : String) (dimension : Dimension) :
    (r.currentUnitsFor scheme dimension).Pairwise fun u v => u.agrees v = false := by
  rw [currentUnitsFor_eq_filter, List.pairwise_map]
  have names : r.entries.Pairwise fun d e => d.1 ≠ e.1 := by
    rw [← List.pairwise_map (f := Prod.fst), ← List.nodup_iff_pairwise_ne, entries,
      Catalog.map_fst_contents]
    exact indexed.nodup
  refine List.Pairwise.filter _ (names.imp_of_mem fun {d e} hd he different => ?_)
  obtain ⟨v, unit, symbol⟩ := indexed.entry hd
  obtain ⟨w, other, otherSymbol⟩ := indexed.entry he
  rw [unit, other]
  exact CompoundUnit.agrees_ofNamed (by rwa [symbol, otherSymbol])

end Current

/-- The answers of a registry to questions about schemes are those that its entries give. -/
structure TellsEntries (r : UnitRegistry α) : Prop where
  /-- The schemes of all units, each once. -/
  schemeNames : r.schemeNames.1.Nodup
    ∧ ∀ scheme, scheme ∈ r.schemeNames.1 ↔ ∃ e ∈ r.entries, scheme ∈ e.2.schemes
  /-- The units of a scheme that have a dimension, in the order of the registry, each once. -/
  unitsFor : ∀ scheme dimension,
    (r.unitsFor scheme dimension).1
        = (r.entries.filter fun e => scheme ∈ e.2.schemes
            ∧ e.2.unit.dimension.factors.Perm dimension.factors).map (fun e => e.2.unit)
      ∧ (r.unitsFor scheme dimension).1.Pairwise fun u v => u.agrees v = false
  /-- The dimensions of the units of a scheme, each once, those of fewer base dimensions first. -/
  schemeDimensions : ∀ scheme,
    (∀ d ∈ (r.schemeDimensions scheme).1,
        ∃ e ∈ r.entries, scheme ∈ e.2.schemes ∧ e.2.unit.dimension = d)
      ∧ (∀ e ∈ r.entries, scheme ∈ e.2.schemes → ∃ d ∈ (r.schemeDimensions scheme).1,
          d.factors.Perm e.2.unit.dimension.factors)
      ∧ ((r.schemeDimensions scheme).1.Pairwise fun d e => ¬ d.factors.Perm e.factors)
      ∧ (r.schemeDimensions scheme).1.Pairwise fun d e => d.cardinality ≤ e.cardinality

/-- What is told of schemes is what the entries say. -/
theorem Remembers.tellsEntries {r : UnitRegistry α} {asked : List (SchemeQuestion α)}
    (remembers : r.Remembers asked) (indexed : r.Indexed) : r.TellsEntries where
  schemeNames := by
    rw [remembers.schemeNames_spec.1]
    exact ⟨r.nodup_currentSchemeNames, fun scheme => r.mem_currentSchemeNames⟩
  unitsFor := by
    intro scheme dimension
    rw [(remembers.unitsFor_spec scheme dimension).1]
    exact ⟨r.currentUnitsFor_eq_filter scheme dimension,
      indexed.pairwise_currentUnitsFor scheme dimension⟩
  schemeDimensions := by
    intro scheme
    rw [(remembers.schemeDimensions_spec scheme).1]
    refine ⟨?_, ?_, r.pairwise_currentSchemeDimensions scheme,
      r.pairwise_cardinality_currentSchemeDimensions scheme⟩
    · intro d mem
      obtain ⟨e, entered, measured⟩ := r.mem_currentSchemeDimensions mem
      obtain ⟨known, inside⟩ := r.mem_entriesIn.mp entered
      exact ⟨e, known, inside, measured⟩
    · intro e known inside
      exact r.exists_mem_currentSchemeDimensions (r.mem_entriesIn.mpr ⟨known, inside⟩)

/-- Whatever has been registered, refused and asked, in whatever order, the answers are those of the
entries at hand: what is remembered is what would be told without a memory. -/
theorem scheme_answers_follow_entries (actions : List (RegistryAction α)) :
    let r : UnitRegistry α := empty.performAll actions
    (r.schemeNames.1 = r.currentSchemeNames
        ∧ (∀ scheme dimension,
          (r.unitsFor scheme dimension).1 = r.currentUnitsFor scheme dimension)
        ∧ ∀ scheme, (r.schemeDimensions scheme).1 = r.currentSchemeDimensions scheme)
      ∧ r.TellsEntries := by
  intro r
  obtain ⟨asked, reached⟩ := exists_reached actions
  have remembers : r.Remembers asked := reached.remembers
  refine ⟨⟨remembers.schemeNames_spec.1, ?_, ?_⟩, remembers.tellsEntries reached.indexed⟩
  · intro scheme dimension
    exact (remembers.unitsFor_spec scheme dimension).1
  · intro scheme
    exact (remembers.schemeDimensions_spec scheme).1

end UnitRegistry

end QuantityCalculus
