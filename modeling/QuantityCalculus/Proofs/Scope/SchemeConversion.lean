/-
Module: QuantityCalculus.Proofs.Scope.SchemeConversion
Layer: Proofs
Purpose: Conversions to a scheme.  Whatever a registry remembers, even of a source that only shares
  its name with the unit at hand, it tells a unit of the scheme that has the dimension asked for, if
  there is one.  So the conversion to this unit succeeds.
Imports: QuantityCalculus.Proofs.Operator.UnitRule, QuantityCalculus.Proofs.Quantity.Equality,
  QuantityCalculus.Proofs.Scope.History, QuantityCalculus.Proofs.Units.Scheme
Trusted boundary: none
Main exports: UnitRegistry.Offers, mem_currentUnitsFor_iff, closestOf_eq_none_iff, mem_of_closestOf,
  Remembers.closestUnit_eq_none_iff, Remembers.offers_of_closestUnit, Scope.convertToScheme_eq,
  Reachable.convertToScheme, scheme_conversion_never_fails_late
Open obligations: none
-/
import QuantityCalculus.Proofs.Operator.UnitRule
import QuantityCalculus.Proofs.Quantity.Equality
import QuantityCalculus.Proofs.Scope.History
import QuantityCalculus.Proofs.Units.Scheme

namespace QuantityCalculus

variable {α : Type} [Scalar α]

/-! ### The selected unit -/

/-- The best candidate is one of those seen, whatever the order of their distances is like. -/
theorem RankedUnit.mem_of_foldl_closer {candidates : List (RankedUnit α)}
    {best : Option (RankedUnit α)} {last : RankedUnit α}
    (h : candidates.foldl closer best = some last) : best = some last ∨ last ∈ candidates := by
  induction candidates generalizing best with
  | nil => exact .inl h
  | cons candidate rest ih =>
      rcases ih h with kept | later
      · have one : best = some last ∨ candidate = last := by
          cases best with
          | none => exact .inr (Option.some.inj kept)
          | some b =>
              rw [closer] at kept
              split at kept
              next => exact .inr (Option.some.inj kept)
              next => exact .inl kept
        rcases one with before | rfl
        · exact .inl before
        · exact .inr List.mem_cons_self
      · exact .inr (List.mem_cons_of_mem candidate later)

/-- There is a best candidate as soon as one has been seen. -/
theorem RankedUnit.foldl_closer_isSome {candidates : List (RankedUnit α)}
    {best : Option (RankedUnit α)} (seen : best.isSome = true) :
    (candidates.foldl closer best).isSome = true := by
  induction candidates generalizing best with
  | nil => exact seen
  | cons candidate rest ih =>
      apply ih
      obtain ⟨b, rfl⟩ := Option.isSome_iff_exists.mp seen
      rw [closer]
      split <;> rfl

/-- Some unit is closest unless there is none. -/
theorem closestOf_eq_none_iff (units : List (CompoundUnit α)) (sourceFactor : α) :
    closestOf units sourceFactor = none ↔ units = [] := by
  cases units with
  | nil => simp [closestOf]
  | cons unit rest =>
      have selected : (closestOf (unit :: rest) sourceFactor).isSome = true := by
        rw [closestOf, Option.isSome_map, List.map_cons, List.foldl_cons]
        exact RankedUnit.foldl_closer_isSome (by rfl)
      exact iff_of_false (Option.isSome_iff_ne_none.mp selected) (List.cons_ne_nil unit rest)

/-- The closest unit is one of those that are compared. -/
theorem mem_of_closestOf {units : List (CompoundUnit α)} {sourceFactor : α} {w : CompoundUnit α}
    (h : closestOf units sourceFactor = some w) : w ∈ units := by
  obtain ⟨last, selected, rfl⟩ := Option.map_eq_some_iff.mp h
  rcases RankedUnit.mem_of_foldl_closer selected with none | ranked
  · cases none
  · obtain ⟨unit, listed, rfl⟩ := List.mem_map.mp ranked
    exact listed

namespace UnitRegistry

variable {r : UnitRegistry α} {asked : List (SchemeQuestion α)} {source : CompoundUnit α}
  {scheme : String} {dimension : Dimension}

/-- A unit is registered in a scheme and has a given dimension. -/
def Offers (r : UnitRegistry α) (scheme : String) (dimension : Dimension) (u : CompoundUnit α) :
    Prop :=
  ∃ e ∈ r.entries, scheme ∈ e.2.schemes ∧ e.2.unit = u ∧ u.dimension.agrees dimension = true

/-- The units listed for a dimension are those that the scheme offers for it. -/
theorem mem_currentUnitsFor_iff {u : CompoundUnit α} :
    u ∈ r.currentUnitsFor scheme dimension ↔ r.Offers scheme dimension u := by
  rw [currentUnitsFor, List.mem_filter, List.mem_map]
  simp only [mem_entriesIn, Offers, and_assoc]
  constructor
  · rintro ⟨⟨e, entered, inScheme, rfl⟩, measures⟩
    exact ⟨e, entered, inScheme, rfl, measures⟩
  · rintro ⟨e, entered, inScheme, rfl, measures⟩
    exact ⟨⟨e, entered, inScheme, rfl⟩, measures⟩

/-- A unit is told, be it from memory, exactly if there is one of the scheme and the dimension. -/
theorem Remembers.closestUnit_eq_none_iff (h : r.Remembers asked) :
    (r.closestUnit source scheme dimension).1 = none ↔ ¬∃ u, r.Offers scheme dimension u := by
  obtain ⟨earlier, alike, -, -, -, told⟩ := (h.closestUnit_spec source scheme dimension).1
  rw [told, closestOf_eq_none_iff, List.eq_nil_iff_forall_not_mem]
  simp only [mem_currentUnitsFor_iff, not_exists]

/-- What is told, be it from memory, is a unit of the scheme and the dimension. -/
theorem Remembers.offers_of_closestUnit (h : r.Remembers asked) {target : CompoundUnit α}
    (found : (r.closestUnit source scheme dimension).1 = some target) :
    r.Offers scheme dimension target := by
  obtain ⟨earlier, alike, -, -, -, told⟩ := (h.closestUnit_spec source scheme dimension).1
  rw [told] at found
  exact mem_currentUnitsFor_iff.mp (mem_of_closestOf found)

/-- Registered units agree with themselves. -/
theorem Offers.agrees_self (indexed : r.Indexed) {u : CompoundUnit α}
    (h : r.Offers scheme dimension u) : u.agrees u = true := by
  obtain ⟨e, entered, -, rfl, -⟩ := h
  obtain ⟨v, unit, -⟩ := indexed.entry entered
  rw [unit]
  have canonical : Product.Canonical (CompoundUnit.ofNamed v) := Product.canonical_ofFactors _
  exact (Product.agrees_iff_exponentOf canonical canonical).mpr fun _ => rfl

end UnitRegistry

/-! ### Conversion -/

/-- A quantity is converted to every unit of its dimension. -/
theorem Quantity.convertTo_offered {r : UnitRegistry α} {q : Quantity α} {scheme : String}
    {target : CompoundUnit α} (offered : r.Offers scheme q.dimension target) :
    ∃ converted, q.convertTo target = .ok converted := by
  obtain ⟨-, -, -, -, measures⟩ := offered
  exact convertTo_isOk ((CompoundUnit.dimension_agrees_comm q.unit target).trans measures)

namespace Scope

theorem convertToScheme_scalar (s : Scope α) {q : Quantity α} (scalar : q.unit.isScalar = true)
    (scheme : String) : s.convertToScheme q scheme = (none, s) := by
  simp [convertToScheme, Quantity.unit?, scalar]

/-- Converting to a scheme is a question for the closest unit and the conversion to the unit
told. -/
theorem convertToScheme_eq (s : Scope α) {q : Quantity α} (unit : q.unit.isScalar = false)
    (scheme : String) : s.convertToScheme q scheme
      = ((s.units.closestUnit q.unit scheme q.dimension).1.bind
          fun target => (q.convertTo target).toOption,
        { s with units := s.units.ask (.closest q.unit scheme q.dimension) }) := by
  simp [convertToScheme, Quantity.unit?, unit, UnitRegistry.ask]

variable [Elementary α] {s : Scope α}

/-- A conversion is one more question to the registry. -/
theorem Reachable.convertToScheme (reachable : s.Reachable) (q : Quantity α) (scheme : String) :
    (s.convertToScheme q scheme).2.Reachable := by
  cases kind : q.unit.isScalar with
  | true =>
      rw [convertToScheme_scalar s kind]
      exact reachable
  | false =>
      rw [convertToScheme_eq s kind]
      exact reachable.perform (.ask (.closest q.unit scheme q.dimension))

/-- There is nothing to convert or to convert to, or a unit of the scheme is found, and the answer
is what the quantity is converted to. -/
theorem convertToScheme_cases (reachable : s.Reachable) (q : Quantity α) (scheme : String) :
    ((s.convertToScheme q scheme).1 = none
        ∧ (q.unit.isScalar = false → ¬∃ u, s.units.Offers scheme q.dimension u))
      ∨ (q.unit.isScalar = false ∧ ∃ target converted, s.units.Offers scheme q.dimension target
        ∧ q.convertTo target = .ok converted
        ∧ (s.convertToScheme q scheme).1 = some converted) := by
  obtain ⟨asked, reached⟩ := reachable.reached_units
  cases kind : q.unit.isScalar with
  | true => exact .inl ⟨congrArg Prod.fst (s.convertToScheme_scalar kind scheme), nofun⟩
  | false =>
      rw [convertToScheme_eq s kind]
      cases told : (s.units.closestUnit q.unit scheme q.dimension).1 with
      | none => exact .inl ⟨rfl, fun _ => reached.remembers.closestUnit_eq_none_iff.mp told⟩
      | some target =>
          have offered := reached.remembers.offers_of_closestUnit told
          obtain ⟨converted, found⟩ := Quantity.convertTo_offered offered
          exact .inr ⟨rfl, target, converted, offered, found, by simp [found, Except.toOption]⟩

/-- Whatever has been declared and asked, a quantity is converted to a scheme exactly if it has a
unit and the scheme has one of its dimension.  The result is of the same kind and the same
dimension, and its unit is one of the scheme.  The conversion to the unit that is told never fails,
and the scope that remembers the question is one of which the same is true. -/
theorem scheme_conversion_never_fails_late (reachable : s.Reachable) (q : Quantity α)
    (scheme : String) :
    let answer := (s.convertToScheme q scheme).1
    (answer.isSome = true ↔ q.unit.isScalar = false ∧ ∃ u, s.units.Offers scheme q.dimension u)
      ∧ (∀ result, answer = some result →
          result.kind = q.kind ∧ result.dimension.agrees q.dimension = true
            ∧ ∃ u, s.units.Offers scheme q.dimension u ∧ result.unit.agrees u = true)
      ∧ (∀ target, (s.units.closestUnit q.unit scheme q.dimension).1 = some target →
          ∃ converted, q.convertTo target = .ok converted)
      ∧ (s.convertToScheme q scheme).2.Reachable := by
  intro answer
  obtain ⟨asked, reached⟩ := reachable.reached_units
  refine ⟨?_, fun result returned => ?_, fun target found => ?_, reachable.convertToScheme q scheme⟩
  · rcases convertToScheme_cases reachable q scheme with ⟨nothing, absent⟩
      | ⟨unit, target, converted, offered, -, returned⟩
    · refine iff_of_false ?_ fun ⟨unit, offered⟩ => absent unit offered
      simp [answer, nothing]
    · refine iff_of_true ?_ ⟨unit, target, offered⟩
      simp [answer, returned]
  · rcases convertToScheme_cases reachable q scheme with ⟨nothing, -⟩
      | ⟨-, target, converted, offered, found, returned'⟩
    · cases nothing.symm.trans returned
    · obtain rfl : converted = result := Option.some.inj (returned'.symm.trans returned)
      rcases Quantity.convertTo_ok found with ⟨same, rfl⟩ | ⟨-, rfl⟩
      · exact ⟨rfl, Product.agrees_self _, target, offered, same⟩
      · obtain ⟨-, -, -, -, measures⟩ := id offered
        exact ⟨rfl, measures, target, offered, offered.agrees_self reached.indexed⟩
  · exact Quantity.convertTo_offered (reached.remembers.offers_of_closestUnit found)

end Scope

/-! ### Two yards -/

section Yards

/-- A unit that is called like the yard and is shorter than a foot. -/
def shortYard : CompoundUnit Float :=
  CompoundUnit.ofNamed (.derived (.ofSymbol "yd") 0.875 (CompoundUnit.ofNamed foot))

/-- Feet and yards in a scheme, and a question about the short yard, which is remembered. -/
def paceScope : Scope Float :=
  Scope.standard.performAll
    [.request (.declare (.primitiveUnit "ft" "Length" ⟨none, ["Imperial"]⟩)),
      .request (.declare
        (.derivedUnit "yd" (.of 3 (CompoundUnit.ofNamed foot)) ⟨none, ["Imperial"]⟩)),
      .ask (.closest shortYard "Imperial" (Dimension.base "Length"))]

def twoYards : Quantity Float := .of 2 (CompoundUnit.ofNamed yard)

/-- Two yards are converted to feet, which were told for the short yard. -/
theorem twoYards_converted_from_memory :
    paceScope.Reachable
      ∧ twoYards.unit.isScalar = false
      ∧ paceScope.units.Offers "Imperial" twoYards.dimension (CompoundUnit.ofNamed foot)
      ∧ ∃ result, (paceScope.convertToScheme twoYards "Imperial").1 = some result
        ∧ result.kind = twoYards.kind ∧ result.dimension.agrees twoYards.dimension = true
        ∧ result.unit.agrees (CompoundUnit.ofNamed foot) = true
        ∧ (result.number == 6) = true := by
  have reachable : paceScope.Reachable := Scope.Reachable.standard.performAll _
  have offered : paceScope.units.Offers "Imperial" twoYards.dimension (CompoundUnit.ofNamed foot) :=
    ⟨("ft", ⟨CompoundUnit.ofNamed foot, ["Imperial"]⟩), List.mem_cons_self, by decide, rfl,
      by decide⟩
  obtain ⟨converted, results, -⟩ :=
    Scope.scheme_conversion_never_fails_late reachable twoYards "Imperial"
  obtain ⟨result, returned⟩ := Option.isSome_iff_exists.mp (converted.mpr ⟨rfl, _, offered⟩)
  obtain ⟨kind, dimension, -⟩ := results result returned
  have inFeet : (paceScope.convertToScheme twoYards "Imperial").1.all (fun result =>
      result.unit.agrees (CompoundUnit.ofNamed foot) && result.number == 6) = true := by
    decide +kernel
  rw [returned, Option.all_some, Bool.and_eq_true] at inFeet
  exact ⟨reachable, rfl, offered, result, returned, kind, dimension, inFeet⟩

end Yards

end QuantityCalculus
