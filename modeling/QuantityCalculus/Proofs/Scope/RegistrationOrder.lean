/-
Module: QuantityCalculus.Proofs.Scope.RegistrationOrder
Layer: Proofs
Purpose: The order in which schemes, their units and their dimensions are listed.  It is the order
  in which units were registered, except that all primitive units come before all derived ones, even
  before those that were registered earlier.
Imports: QuantityCalculus.Proofs.Scope.History, QuantityCalculus.Proofs.Units.PrimitiveUnits
Trusted boundary: none
Main exports: CompoundUnit.isPrimitive, UnitRegistry.Enters, Registers.enters, Scope.registrations,
  Scope.performAll_enters, primitivesFirst, InOrder, SchemeFollows, NamesFollow,
  Remembers.schemeFollows, Remembers.namesFollow, scheme_listings_put_primitives_first
Open obligations: none
-/
import QuantityCalculus.Proofs.Scope.History
import QuantityCalculus.Proofs.Units.PrimitiveUnits

namespace QuantityCalculus

variable {α : Type}

/-- A unit is a single primitive one. -/
def CompoundUnit.isPrimitive (u : CompoundUnit α) : Bool :=
  (u.asNamed?.bind NamedUnit.baseDimension?).isSome

theorem CompoundUnit.isPrimitive_ofNamed (v : NamedUnit α) :
    (CompoundUnit.ofNamed v).isPrimitive = v.baseDimension?.isSome := by
  rw [isPrimitive, asNamed?_ofNamed, Option.bind_some]

/-! ### What is entered -/

namespace UnitRegistry

/-- Some entries have been added to a registry, primitive units to its base entries and the others
to its derived entries. -/
structure Enters (r : UnitRegistry α) (added : List (UnitEntry α)) (r' : UnitRegistry α) :
    Prop where
  base : r'.catalog.base.map (·.content)
    = r.catalog.base.map (·.content) ++ added.filter fun e => e.unit.isPrimitive
  derived : r'.catalog.derived.map (·.content)
    = r.catalog.derived.map (·.content) ++ added.filter fun e => !e.unit.isPrimitive

theorem Enters.nothing {r r' : UnitRegistry α} (same : r'.catalog = r.catalog) :
    r.Enters [] r' where
  base := by simp [same]
  derived := by simp [same]

theorem Enters.append {r r' r'' : UnitRegistry α} {added later : List (UnitEntry α)}
    (first : r.Enters added r') (rest : r'.Enters later r'') : r.Enters (added ++ later) r'' where
  base := by rw [rest.base, first.base, List.filter_append, List.append_assoc]
  derived := by rw [rest.derived, first.derived, List.filter_append, List.append_assoc]

/-- A primitive unit that is accepted is entered last. -/
theorem Enters.addPrimitive {r r' : UnitRegistry α} {unit : NamedUnit α} {schemes : List String}
    {u : CompoundUnit α} (added : r.addPrimitive unit schemes = .ok (u, r')) :
    r.Enters [⟨u, schemes⟩] r' := by
  obtain ⟨names, dimension, rfl, unmeasured, entered, -⟩ := addPrimitive_spec added
  have answer : u = CompoundUnit.ofNamed (.primitive names dimension) := by
    simp only [UnitRegistry.addPrimitive, unmeasured, entered] at added
    exact (congrArg Prod.fst (Except.ok.inj added)).symm
  obtain ⟨-, catalog⟩ := Catalog.addBase_spec entered
  have primitive : u.isPrimitive = true := by rw [answer, CompoundUnit.isPrimitive_ofNamed]; rfl
  constructor
  · rw [catalog, ← answer]
    simp [primitive]
  · rw [catalog]
    simp [primitive]

variable [Scalar α]

/-- A derived unit that is accepted is entered last. -/
theorem Enters.addDerived {r r' : UnitRegistry α} {names : UnitNames} {factor : α}
    {definition : CompoundUnit α} {schemes : List String} {u : CompoundUnit α}
    (added : r.addDerived (.derived names factor definition) schemes = .ok (u, r')) :
    r.Enters [⟨u, schemes⟩] r' := by
  obtain ⟨entered, -⟩ := addDerived_spec added
  have answer : u = CompoundUnit.ofNamed (.derived names factor definition) := by
    simp only [UnitRegistry.addDerived, entered] at added
    exact (congrArg Prod.fst (Except.ok.inj added)).symm
  obtain ⟨-, catalog⟩ := Catalog.addDerived_spec entered
  have derived : u.isPrimitive = false := by rw [answer, CompoundUnit.isPrimitive_ofNamed]; rfl
  constructor
  · rw [catalog]
    simp [derived]
  · rw [catalog, ← answer]
    simp [derived]

end UnitRegistry

namespace Scope

variable [Scalar α]

/-- An action enters what it registers and nothing else. -/
theorem Registers.enters {r r' : UnitRegistry α} {entry : Option (UnitEntry α)}
    (h : Registers r entry r') : r.Enters entry.toList r' := by
  cases h with
  | primitive added => exact .addPrimitive added
  | derived added => exact .addDerived added
  | question question => exact .nothing (r.ask_catalog question)
  | copy => exact .nothing rfl
  | nothing => exact .nothing rfl

variable [Elementary α]

/-- The units that actions register, in the order of their registration. -/
def registrations (s : Scope α) : List (ScopeAction α) → List (UnitEntry α)
  | [] => []
  | action :: rest => (s.registration? action).toList ++ (s.perform action).registrations rest

/-- What actions on a scope register is entered in the order of registration. -/
theorem performAll_enters (s : Scope α) (actions : List (ScopeAction α)) :
    s.units.Enters (s.registrations actions) (s.performAll actions).units := by
  induction actions generalizing s with
  | nil => exact .nothing rfl
  | cons action rest ih =>
      exact (s.perform_registers action).enters.append (ih (s.perform action))

end Scope

/-! ### The order of the listings -/

section Listings

variable [Scalar α]

/-- The entries of a scheme. -/
def registeredIn (scheme : String) (log : List (UnitEntry α)) : List (UnitEntry α) :=
  log.filter fun e => e.schemes.contains scheme

/-- The units of some entries that have a given dimension. -/
def unitsMeasuring (d : Dimension) (log : List (UnitEntry α)) : List (CompoundUnit α) :=
  (log.map (·.unit)).filter fun u => u.dimension.agrees d

/-- Where the first unit of a dimension stands. -/
def placeOfDimension (log : List (UnitEntry α)) (d : Dimension) : Nat :=
  log.findIdx fun e => e.unit.dimension.agrees d

/-- Where the first unit of a scheme stands. -/
def placeOfScheme (log : List (UnitEntry α)) (scheme : String) : Nat :=
  log.findIdx fun e => e.schemes.contains scheme

namespace UnitRegistry

/-- The units of a scheme are listed in the order of given entries.  Its dimensions are listed by
their cardinality, those of one cardinality in the order in which they come first. -/
structure SchemeFollows (r : UnitRegistry α) (scheme : String) (log : List (UnitEntry α)) :
    Prop where
  units : ∀ d, (r.unitsFor scheme d).1 = unitsMeasuring d log
  dimensions : (r.schemeDimensions scheme).1.Pairwise
    (RankedBefore Dimension.cardinality fun d e => placeOfDimension log d < placeOfDimension log e)

/-- The schemes are listed in the order in which they come first in given entries. -/
def NamesFollow (r : UnitRegistry α) (log : List (UnitEntry α)) : Prop :=
  r.schemeNames.1.Pairwise fun a b => placeOfScheme log a ≤ placeOfScheme log b

instance (r : UnitRegistry α) (log : List (UnitEntry α)) : Decidable (r.NamesFollow log) :=
  inferInstanceAs (Decidable (List.Pairwise _ _))

/-- The entries of a registry without their names. -/
def listed (r : UnitRegistry α) : List (UnitEntry α) := r.entries.map (·.2)

variable {r : UnitRegistry α} {asked : List (SchemeQuestion α)}

omit [Scalar α] in
theorem map_entriesIn (r : UnitRegistry α) (scheme : String) :
    (r.entriesIn scheme).map (·.2) = registeredIn scheme r.listed := by
  rw [registeredIn, listed, List.filter_map]
  rfl

/-- A scheme lists its units in the order of the entries, and dimensions of the same size by it. -/
theorem Remembers.schemeFollows (h : r.Remembers asked) (scheme : String) :
    r.SchemeFollows scheme (registeredIn scheme r.listed) where
  units := by
    intro d
    rw [(h.unitsFor_spec scheme d).1, ← map_entriesIn, unitsMeasuring, List.map_map]
    rfl
  dimensions := by
    rw [(h.schemeDimensions_spec scheme).1, ← map_entriesIn]
    have first := pairwise_findIdx_foldl_appendNew Product.agrees Product.agrees_self
      (fun _ _ _ => Product.agrees_trans) ((r.entriesIn scheme).map fun e => e.2.unit.dimension)
    refine pairwise_sortBy_stable Dimension.cardinality (first.imp fun earlier => ?_)
    simpa only [placeOfDimension, List.findIdx_map, Function.comp_def] using earlier

/-- Schemes are listed in the order in which the entries mention them first. -/
theorem Remembers.namesFollow (h : r.Remembers asked) : r.NamesFollow r.listed := by
  rw [NamesFollow, h.schemeNames_spec.1, currentSchemeNames]
  have first := pairwise_findIdx_foldl_appendNew (fun a b : String => a == b) (by simp)
    (by simp) (r.entries.flatMap fun e => e.2.schemes)
  refine first.imp fun earlier => ?_
  have le := findIdx_le_of_flatMap earlier
  simpa only [placeOfScheme, listed, List.findIdx_map, Function.comp_def, List.any_beq'] using le

end UnitRegistry

/-- Entries with those of primitive units first. -/
def primitivesFirst (log : List (UnitEntry α)) : List (UnitEntry α) :=
  preferring (fun e => e.unit.isPrimitive) log

/-- No entry of a derived unit stands before one of a primitive unit. -/
def InOrder (log : List (UnitEntry α)) : Prop :=
  log.Pairwise fun e later => later.unit.isPrimitive = true → e.unit.isPrimitive = true

instance (log : List (UnitEntry α)) : Decidable (InOrder log) :=
  inferInstanceAs (Decidable (List.Pairwise _ _))

omit [Scalar α] in
theorem UnitRegistry.Enters.listed {r : UnitRegistry α} {log : List (UnitEntry α)}
    (h : UnitRegistry.empty.Enters log r) : r.listed = primitivesFirst log := by
  rw [UnitRegistry.listed, entries, Catalog.contents, List.map_append, List.map_map, List.map_map]
  exact congrArg₂ (· ++ ·) h.base h.derived

variable [Elementary α]

/-- Whatever is done to a scope that has no units yet, schemes, their units and their dimensions are
listed in the order in which units have been registered, but with the primitive units in front.  So
a scheme is listed in the order of registration if none of its derived units was registered before
one of its primitive units, and the names of schemes are if this is so for all units.  The units of
one dimension are listed in the order of registration exactly if none of the derived ones was
registered before a primitive one. -/
theorem scheme_listings_put_primitives_first {start : Scope α}
    (fresh : start.units = UnitRegistry.empty) (actions : List (ScopeAction α)) :
    let r := (start.performAll actions).units
    let log := start.registrations actions
    r.listed = primitivesFirst log
      ∧ (∀ scheme, r.SchemeFollows scheme (primitivesFirst (registeredIn scheme log)))
      ∧ r.NamesFollow (primitivesFirst log)
      ∧ (∀ scheme, InOrder (registeredIn scheme log) →
          r.SchemeFollows scheme (registeredIn scheme log))
      ∧ (InOrder log → r.NamesFollow log)
      ∧ ∀ scheme d, (r.unitsFor scheme d).1 = unitsMeasuring d (registeredIn scheme log)
          ↔ (unitsMeasuring d (registeredIn scheme log)).Pairwise
              fun u v => v.isPrimitive = true → u.isPrimitive = true := by
  intro r log
  obtain ⟨asked, reached⟩ := Scope.performAll_reached_units
    (s := start) ⟨[], by rw [fresh]; exact .empty⟩ actions
  have remembers : r.Remembers asked := reached.remembers
  have entered : UnitRegistry.empty.Enters log r := fresh ▸ start.performAll_enters actions
  have inScheme : ∀ scheme,
      registeredIn scheme r.listed = primitivesFirst (registeredIn scheme log) := by
    intro scheme
    rw [entered.listed]
    exact (preferring_filter _ _ log).symm
  have follows : ∀ scheme, r.SchemeFollows scheme (primitivesFirst (registeredIn scheme log)) :=
    fun scheme => inScheme scheme ▸ remembers.schemeFollows scheme
  have names : r.NamesFollow (primitivesFirst log) := entered.listed ▸ remembers.namesFollow
  refine ⟨entered.listed, follows, names, fun scheme inOrder => ?_, fun inOrder => ?_,
    fun scheme d => ?_⟩
  · have same := (preferring_eq_self_iff _).mpr inOrder
    exact same ▸ follows scheme
  · have same := (preferring_eq_self_iff _).mpr inOrder
    exact same ▸ names
  · have listed : (r.unitsFor scheme d).1
        = preferring CompoundUnit.isPrimitive (unitsMeasuring d (registeredIn scheme log)) := by
      rw [(follows scheme).units d, unitsMeasuring, unitsMeasuring, preferring_filter,
        preferring_map]
      rfl
    rw [listed]
    exact preferring_eq_self_iff _

end Listings

/-! ### Acres, seconds and pounds -/

section Acres

/-- The request to register a primitive unit. -/
def addPrimitive (symbol dimension : String) (schemes : List String) : ScopeAction Float :=
  .request (.declare (.primitiveUnit symbol dimension ⟨none, schemes⟩))

/-- The request to register a unit that stands for a number of others. -/
def addDerived (symbol : String) (number : Float) (unit : CompoundUnit Float)
    (schemes : List String) :
    ScopeAction Float :=
  .request (.declare (.derivedUnit symbol (.of number unit) ⟨none, schemes⟩))

/-- The names of single units. -/
def symbolsOf (units : List (CompoundUnit Float)) : List String :=
  units.filterMap fun u => u.asNamed?.map NamedUnit.symbol

def metreSquared : CompoundUnit Float :=
  (CompoundUnit.ofNamed metreUnit).mul (CompoundUnit.ofNamed metreUnit)

/-- The acre is registered after the metre and the second.  A second foot is refused. -/
def metricActions : List (ScopeAction Float) :=
  [addPrimitive "m" "Length" ["Metric"], .ask .names, addPrimitive "s" "Time" ["Civil", "Metric"],
    addDerived "ac" 4046.8564224 metreSquared ["Imperial"],
    addDerived "ft" 0.3048 (CompoundUnit.ofNamed metreUnit) ["Imperial"],
    addPrimitive "ft" "Length" ["Metric"],
    addDerived "km" 1000 (CompoundUnit.ofNamed metreUnit) ["Metric"]]

/-- No derived unit is registered before a primitive one, and all is listed as it was registered. -/
theorem metric_listed_in_order :
    let start : Scope Float := Scope.standard
    let r := (start.performAll metricActions).units
    let log := start.registrations metricActions
    start.units = UnitRegistry.empty
      ∧ log.map (fun e => symbolsOf [e.unit]) = [["m"], ["s"], ["ac"], ["ft"], ["km"]]
      ∧ InOrder (registeredIn "Metric" log)
      ∧ r.SchemeFollows "Metric" (registeredIn "Metric" log)
      ∧ symbolsOf (r.unitsFor "Metric" (Dimension.base "Length")).1 = ["m", "km"]
      ∧ InOrder log ∧ r.NamesFollow log ∧ r.schemeNames.1 = ["Metric", "Civil", "Imperial"] := by
  intro start r log
  have fresh : start.units = UnitRegistry.empty := rfl
  obtain ⟨-, -, -, follows, names, -⟩ := scheme_listings_put_primitives_first fresh metricActions
  have metric : InOrder (registeredIn "Metric" log) := by decide +kernel
  have all : InOrder log := by decide +kernel
  exact ⟨fresh, by decide +kernel, metric, follows "Metric" metric, by decide +kernel, all,
    names all,
    by decide +kernel⟩

/-- The acre is registered before the second, and the pound before the gram that it is defined
by. -/
def imperialActions : List (ScopeAction Float) :=
  [addPrimitive "m" "Length" ["Metric"], addDerived "ac" 4046.8564224 metreSquared ["Imperial"],
    addPrimitive "s" "Time" ["Civil", "Imperial"],
    addDerived "lb" 453.59237 (CompoundUnit.ofNamed (.primitive (.ofSymbol "g") "Mass"))
      ["Imperial"],
    addPrimitive "g" "Mass" ["Imperial"]]

/-- The gram is listed before the pound, time before area, and the scheme that only the second is in
before the one that the acre is in. -/
theorem imperial_listed_out_of_order :
    let start : Scope Float := Scope.standard
    let r := (start.performAll imperialActions).units
    let log := start.registrations imperialActions
    let imperial := registeredIn "Imperial" log
    (r.unitsFor "Imperial" (Dimension.base "Mass")).1
        ≠ unitsMeasuring (Dimension.base "Mass") imperial
      ∧ ¬(r.schemeDimensions "Imperial").1.Pairwise (RankedBefore Dimension.cardinality
          fun d e => placeOfDimension imperial d < placeOfDimension imperial e)
      ∧ ¬r.NamesFollow log := by
  intro start r log imperial
  have told : symbolsOf (r.unitsFor "Imperial" (Dimension.base "Mass")).1 = ["g", "lb"] := by
    decide +kernel
  have registered : symbolsOf (unitsMeasuring (Dimension.base "Mass") imperial) = ["lb", "g"] := by
    decide +kernel
  refine ⟨fun same => ?_, by decide +kernel, by decide +kernel⟩
  rw [same, registered] at told
  exact absurd told (by decide)

end Acres

end QuantityCalculus
