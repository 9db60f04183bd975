/-
Module: QuantityCalculus.Proofs.Units.ClosestUnit
Layer: Proofs
Purpose: The closest unit of a scheme is the first one that no unit of the scheme is closer than.
  The distances are compared as they are: the order of numbers may leave some of them without a
  place, and such a one is neither closer nor farther than any other.
Imports: QuantityCalculus.Proofs.Scalar.Order, QuantityCalculus.Proofs.Units.Scheme
Trusted boundary: none
Main exports: FirstLeast, RankedUnit.closer_spec, RankedUnit.foldl_closer_spec, closestOf_spec,
  UnitRegistry.closestUnit_is_first_least
Open obligations: none
-/
import QuantityCalculus.Proofs.Scalar.Order
import QuantityCalculus.Proofs.Units.Scheme

namespace QuantityCalculus

variable {α : Type} [Scalar α]

/-! ### First minima -/

/-- An element whose measure no other one is below, at a place that no equal measure comes
before. -/
structure FirstLeast {τ : Type} (measure : τ → α) (listed : List τ) (w : τ) : Prop where
  minimal : ∀ v ∈ listed, ¬measure v < measure w
  first : ∃ before after, listed = before ++ w :: after
    ∧ ∀ v ∈ before, (measure v == measure w) = false

namespace FirstLeast

variable {τ σ : Type} {measure : τ → α} {listed : List τ} {w c : τ}

theorem singleton [StrictlyOrdered α] (measure : τ → α) (w : τ) : FirstLeast measure [w] w where
  minimal := by
    intro v only
    rw [List.mem_singleton.mp only]
    exact StrictlyOrdered.lt_irrefl _
  first := ⟨[], [], rfl, by simp⟩

/-- One that comes later stays behind unless its measure is below. -/
theorem keep (h : FirstLeast measure listed w) (above : ¬measure c < measure w) :
    FirstLeast measure (listed ++ [c]) w where
  minimal := by
    intro v mem
    rcases List.mem_append.mp mem with earlier | last
    · exact h.minimal v earlier
    · rwa [List.mem_singleton.mp last]
  first := by
    obtain ⟨before, after, rfl, different⟩ := h.first
    exact ⟨before, after ++ [c], by simp, different⟩

/-- One whose measure is below takes the place: what is below it or equal to it would have been
below the former least one. -/
theorem replace [StrictlyOrdered α] (h : FirstLeast measure listed w)
    (below : measure c < measure w) : FirstLeast measure (listed ++ [c]) c where
  minimal := by
    intro v mem less
    rcases List.mem_append.mp mem with earlier | last
    · exact h.minimal v earlier (StrictlyOrdered.lt_trans less below)
    · rw [List.mem_singleton.mp last] at less
      exact StrictlyOrdered.lt_irrefl _ less
  first := by
    refine ⟨listed, [], rfl, fun v earlier => Bool.eq_false_iff.mpr fun same => ?_⟩
    exact h.minimal v earlier (StrictlyOrdered.lt_of_beq same below)

/-- The first least image is that of a first least element. -/
theorem of_map {f : σ → τ} {listed : List σ} (h : FirstLeast measure (listed.map f) w) :
    ∃ v, f v = w ∧ FirstLeast (measure ∘ f) listed v := by
  obtain ⟨before, after, split, different⟩ := h.first
  obtain ⟨before, rest, rfl, rfl, mapped⟩ := List.map_eq_append_iff.mp split
  obtain ⟨v, after, rfl, rfl, rfl⟩ := List.map_eq_cons_iff.mp mapped
  refine ⟨v, rfl, fun u mem => h.minimal (f u) (List.mem_map_of_mem mem), before, after, rfl, ?_⟩
  exact fun u earlier => different (f u) (List.mem_map_of_mem earlier)

end FirstLeast

/-! ### The selection -/

/-- The distance of the ratio of two units from one. -/
def CompoundUnit.distanceFrom (unit source : CompoundUnit α) : α :=
  Scalar.abs (unit.factor / source.factor - 1)

/-- One more candidate is taken into account. -/
theorem RankedUnit.closer_spec [StrictlyOrdered α] {seen : List (RankedUnit α)}
    {best : RankedUnit α}
    (h : FirstLeast RankedUnit.distance seen best) (candidate : RankedUnit α) :
    ∃ next, closer (some best) candidate = some next
      ∧ FirstLeast RankedUnit.distance (seen ++ [candidate]) next := by
  by_cases below : candidate.distance < best.distance
  · exact ⟨candidate, if_pos below, h.replace below⟩
  · exact ⟨best, if_neg below, h.keep below⟩

/-- The best one so far is the first least one of those seen, however many candidates follow. -/
theorem RankedUnit.foldl_closer_spec [StrictlyOrdered α] (rest : List (RankedUnit α))
    {seen : List (RankedUnit α)} {best : RankedUnit α}
    (h : FirstLeast RankedUnit.distance seen best) :
    ∃ last, rest.foldl closer (some best) = some last
      ∧ FirstLeast RankedUnit.distance (seen ++ rest) last := by
  induction rest generalizing seen best with
  | nil => exact ⟨best, rfl, by rwa [List.append_nil]⟩
  | cons candidate rest ih =>
      obtain ⟨next, step, least⟩ := closer_spec h candidate
      obtain ⟨last, run, least⟩ := ih least
      refine ⟨last, by rw [List.foldl_cons, step, run], ?_⟩
      rwa [List.append_assoc] at least

/-- There is a closest unit unless there is no unit. -/
theorem closestOf_spec [StrictlyOrdered α] (units : List (CompoundUnit α))
    (source : CompoundUnit α) :
    (closestOf units source.factor = none ↔ units = [])
      ∧ ∀ w, closestOf units source.factor = some w →
          FirstLeast (fun u => u.distanceFrom source) units w := by
  cases units with
  | nil => simp [closestOf]
  | cons u rest =>
      let rank : CompoundUnit α → RankedUnit α := fun u => ⟨u, u.distanceFrom source⟩
      obtain ⟨last, run, least⟩ := RankedUnit.foldl_closer_spec (rest.map rank)
        (FirstLeast.singleton RankedUnit.distance (rank u))
      have selected : closestOf (u :: rest) source.factor = some last.unit :=
        congrArg (Option.map _) run
      change FirstLeast RankedUnit.distance ((u :: rest).map rank) last at least
      obtain ⟨w, rfl, first⟩ := least.of_map
      rw [selected]
      refine ⟨by simp, fun v answer => ?_⟩
      obtain rfl := Option.some.inj answer
      exact first

/-- Unless a closest unit has been asked for since the last registration, a registry tells the first
of the closest units of a scheme for a dimension, and none only where the scheme has no unit for
it. -/
theorem UnitRegistry.closestUnit_is_first_least [StrictlyOrdered α]
    (actions : List (RegistryAction α))
    (unasked : ∀ source scheme dimension,
      SchemeQuestion.closest source scheme dimension ∉ empty.questionsSince [] actions)
    (source : CompoundUnit α) (scheme : String) (dimension : Dimension) :
    let r : UnitRegistry α := empty.performAll actions
    let units := (r.unitsFor scheme dimension).1
    let answer := (r.closestUnit source scheme dimension).1
    (answer = none ↔ units = [])
      ∧ ∀ w, answer = some w → FirstLeast (fun u => u.distanceFrom source) units w := by
  intro r units answer
  have remembers := (Reached.empty.performAll actions).remembers
  have listed : units = r.currentUnitsFor scheme dimension :=
    (remembers.unitsFor_spec scheme dimension).1
  obtain ⟨⟨earlier, alike, member, -, -, told⟩, -⟩ :=
    remembers.closestUnit_spec source scheme dimension
  -- the question at hand is the only one that can have been answered
  have now : earlier = source := by
    rcases List.mem_cons.mp member with now | before
    · exact (SchemeQuestion.closest.inj now).1
    · exact absurd before (unasked earlier scheme alike)
  have selected : answer = closestOf units source.factor := by rw [listed, ← now]; exact told
  rw [selected]
  exact closestOf_spec units source

/-! ### Between a foot and a yard -/

section Paces

/-- Feet, yards and miles, a question that a registration forgets, one that it does not, and a
registration that is refused. -/
def surveying : List (RegistryAction Float) :=
  [.addPrimitive foot ["Imperial"], .addDerived yard ["Imperial"], .ask closestToYard,
    .addDerived mile ["Imperial"], .ask .names, .addPrimitive foot ["Metric"]]

/-- Two feet, from which a foot and a yard are equally far. -/
def doubleFoot : CompoundUnit Float :=
  CompoundUnit.ofNamed (.derived (.ofSymbol "dft") 2 (CompoundUnit.ofNamed foot))

/-- Of foot and yard, which are as far from two feet, the one that is listed first is the answer. -/
theorem closest_to_doubleFoot_listed_first :
    let r : UnitRegistry Float := UnitRegistry.empty.performAll surveying
    let length := Dimension.base "Length"
    let answer := (r.closestUnit doubleFoot "Imperial" length).1
    (∀ source scheme dimension,
        SchemeQuestion.closest source scheme dimension ∉ UnitRegistry.empty.questionsSince []
        surveying)
      ∧ ((CompoundUnit.ofNamed foot).distanceFrom doubleFoot
          == (CompoundUnit.ofNamed yard).distanceFrom doubleFoot) = true
      ∧ (answer.bind CompoundUnit.asNamed?).map NamedUnit.symbol = some "ft"
      ∧ (answer = none ↔ (r.unitsFor "Imperial" length).1 = [])
      ∧ ∀ w, answer = some w →
          FirstLeast (fun u => u.distanceFrom doubleFoot) (r.unitsFor "Imperial" length).1 w := by
  intro r length answer
  have asked : UnitRegistry.empty.questionsSince [] surveying = [SchemeQuestion.names] := rfl
  have unasked : ∀ source scheme dimension, SchemeQuestion.closest source scheme dimension
      ∉ UnitRegistry.empty.questionsSince [] surveying := by simp [asked]
  have tie : ((CompoundUnit.ofNamed foot).distanceFrom doubleFoot
      == (CompoundUnit.ofNamed yard).distanceFrom doubleFoot) = true := by decide +kernel
  have told : (answer.bind CompoundUnit.asNamed?).map NamedUnit.symbol = some "ft" := by
    decide +kernel
  have least :=
    UnitRegistry.closestUnit_is_first_least surveying unasked doubleFoot "Imperial" length
  exact ⟨unasked, tie, told, least⟩

end Paces

end QuantityCalculus
