/-
Module: QuantityCalculus.Proofs.Evaluation.Suggestion
Layer: Proofs
Purpose: A name that is suggested for an unknown one has a value where it is suggested, unless it is
  a name of the last result and there is none yet.
Imports: QuantityCalculus.Proofs.Catalog.Entries, QuantityCalculus.Proofs.Evaluation.Fault,
  QuantityCalculus.Proofs.Text.Suggestion
Trusted boundary: none
Main exports: NameKind, NameKind.Known, evaluate_known, evaluate_unknown, known_of_candidate,
  suggestion_resolves_iff
Open obligations: none
-/
import QuantityCalculus.Proofs.Catalog.Entries
import QuantityCalculus.Proofs.Evaluation.Fault
import QuantityCalculus.Proofs.Text.Suggestion

namespace QuantityCalculus

variable {α : Type}

/-! ### Names and what they stand for -/

/-- The kinds of nodes that consist of a single name. -/
inductive NameKind where
  | identifier
  | unitName
deriving DecidableEq, Repr

namespace NameKind

def node : NameKind → String → Span → Node
  | identifier => .identifier
  | unitName => .unitName

/-- The error for a name that is not known. -/
def unknown : NameKind → String → Option String → EvaluationError α
  | identifier => .unknownVariable
  | unitName => .unknownUnit

/-- The names that may be suggested. -/
def candidates (s : Scope α) : NameKind → List String
  | identifier => s.knownNames
  | unitName => s.units.catalog.names

/-- A name that stands for something in a scope. -/
def Known (s : Scope α) (name : String) : NameKind → Prop
  | identifier =>
      (s.valueOf? name).isSome = true ∨ (name ∈ lastResultNames ∧ s.lastResult.isSome = true)
        ∨ s.units.contains name = true
  | unitName => s.units.contains name = true

end NameKind

/-- A unit that the registry contains can be looked up. -/
theorem Scope.unit_known {s : Scope α} {name : String} (known : s.units.contains name = true) :
    ∃ u, s.unit name = .ok u := by
  obtain ⟨content, found⟩ : ∃ content, s.units.catalog.find? name = some content := by
    simp only [UnitRegistry.contains, Catalog.contains, Bool.or_eq_true,
      Option.isSome_iff_exists] at known
    rw [Catalog.find?]
    split
    next e _ => exact ⟨e.content, rfl⟩
    next none =>
      obtain ⟨e, found⟩ := known.resolve_left (by simp [none])
      exact ⟨e.content, by rw [found]; rfl⟩
  exact ⟨content.unit, by rw [unit, UnitRegistry.get, Catalog.get, found]⟩

theorem Scope.valueOf?_isSome_iff {s : Scope α} {name : String} :
    (s.valueOf? name).isSome = true ↔ name ∈ s.bindings.map (·.name) := by
  simp [valueOf?, binding?]

/-- Everything that may be suggested is known, except for the names of the last result as long as
there is none. -/
theorem known_of_candidate {s : Scope α} {kind : NameKind} {name : String}
    (candidate : name ∈ kind.candidates s) :
    kind.Known s name ∨ (kind = .identifier ∧ name ∈ lastResultNames ∧ s.lastResult = none) := by
  cases kind with
  | unitName => exact .inl (Catalog.contains_iff.mpr candidate)
  | identifier =>
      rw [NameKind.candidates, Scope.knownNames, UnitRegistry.entries, Catalog.map_fst_contents,
        List.mem_append, List.mem_append] at candidate
      rcases candidate with (bound | result) | registered
      · exact .inl (.inl (Scope.valueOf?_isSome_iff.mpr bound))
      · cases last : s.lastResult with
        | some q => exact .inl (.inr (.inl ⟨result, by rw [last]; rfl⟩))
        | none => exact .inr ⟨rfl, result, rfl⟩
      · exact .inl (.inr (.inr (Catalog.contains_iff.mpr registered)))

/-- Among the names that may be suggested, only one of the last result can stand for nothing. -/
theorem unknown_candidate_iff {s : Scope α} {kind : NameKind} {name : String}
    (candidate : name ∈ kind.candidates s) :
    ¬kind.Known s name ↔ kind = .identifier ∧ name ∈ lastResultNames ∧ s.lastResult = none
      ∧ s.valueOf? name = none ∧ s.units.contains name = false := by
  constructor
  · intro unknown
    obtain ⟨rfl, result, noResult⟩ := (known_of_candidate candidate).resolve_left unknown
    simp only [NameKind.Known, not_or, Bool.not_eq_true, Option.isSome_eq_false_iff,
      Option.isNone_iff_eq_none] at unknown
    obtain ⟨unbound, -, noUnit⟩ := unknown
    exact ⟨rfl, result, noResult, unbound, noUnit⟩
  · rintro ⟨rfl, -, noResult, unbound, noUnit⟩
    simp [NameKind.Known, noResult, unbound, noUnit]

/-! ### The evaluation of names -/

variable [Scalar α] [Elementary α] (preferences : Preferences)

/-- A known name has a value, and nothing is reported. -/
theorem evaluate_known {s : Scope α} {kind : NameKind} {name : String} (known : kind.Known s name)
    (span : Span) : ∃ q, evaluate preferences (kind.node name span) s = .success q s := by
  cases kind with
  | unitName =>
      obtain ⟨u, found⟩ := Scope.unit_known known
      exact ⟨.ofUnit u, by rw [NameKind.node, evaluate, unitValue, found]; rfl⟩
  | identifier =>
      rw [NameKind.node, evaluate, identifierValue]
      split
      next q _ => exact ⟨q, rfl⟩
      next unbound =>
        split
        next q _ => exact ⟨q, rfl⟩
        next noResult =>
          have registered : s.units.contains name = true := by
            rcases known with bound | ⟨listed, some⟩ | registered
            · simp [unbound] at bound
            · simp [listed] at noResult
              simp [noResult] at some
            · exact registered
          obtain ⟨u, found⟩ := Scope.unit_known registered
          exact ⟨.ofUnit u, by rw [found]; rfl⟩

/-- A name that is not known has no value, and it is reported with the candidate that was most
likely meant. -/
theorem evaluate_unknown {s : Scope α} {kind : NameKind} {name : String}
    (unknown : ¬kind.Known s name) (span : Span) :
    evaluate preferences (kind.node name span) s
      = .failure [⟨kind.unknown name (Text.suggest (kind.candidates s) name), span, none⟩] s := by
  cases kind with
  | unitName =>
      rw [NameKind.node, evaluate, unitValue_unknown (Bool.eq_false_iff.mpr unknown)]
      rfl
  | identifier =>
      simp only [NameKind.Known, not_or, not_and, Bool.not_eq_true, Option.isSome_eq_false_iff,
        Option.isNone_iff_eq_none] at unknown
      obtain ⟨unbound, noResult, noUnit⟩ := unknown
      rw [NameKind.node, evaluate, identifierValue_unknown unbound noResult noUnit]
      rfl

/-- A name that is suggested is another one than the name it is suggested for, and has a value in
its place, unless it is a name of the last result that stands for nothing at all. -/
theorem suggestion_resolves_iff (s : Scope α) {kind : NameKind} {name suggested : String}
    {span : Span} {d : Diagnostic α}
    (reported : d ∈ (evaluate preferences (kind.node name span) s).reports)
    (suggests : d.error.suggestion? = some suggested) :
    let after := (evaluate preferences (kind.node name span) s).scope
    (suggested ≠ name ∧ ∀ place,
        (evaluate preferences (kind.node suggested place) after).value.isSome = true)
      ↔ ¬(kind = .identifier ∧ suggested ∈ lastResultNames ∧ after.lastResult = none
          ∧ after.valueOf? suggested = none ∧ after.units.contains suggested = false) := by
  by_cases known : kind.Known s name
  · obtain ⟨q, evaluated⟩ := evaluate_known preferences known span
    rw [evaluated] at reported
    cases reported
  · rw [evaluate_unknown preferences known span] at reported ⊢
    obtain rfl := List.mem_singleton.mp reported
    have candidate : suggested ∈ kind.candidates s := by
      cases kind <;> exact (Text.suggest_spec suggests).1
    simp only [Outcome.failure]
    rw [← unknown_candidate_iff candidate, not_not]
    constructor
    · rintro ⟨-, resolved⟩
      by_contra unresolved
      have valued := resolved span
      rw [evaluate_unknown preferences unresolved span] at valued
      cases valued
    · intro resolved
      refine ⟨fun same => known (same ▸ resolved), fun place => ?_⟩
      obtain ⟨q, evaluated⟩ := evaluate_known preferences resolved place
      rw [evaluated]
      rfl

/-! ### The name of a result that does not exist yet -/

section NoResult

/-- A scope with a radius and no last result. -/
def withRadius : Scope Float :=
  { (Scope.standard : Scope Float) with bindings := [⟨"radius", .plain 2, false⟩] }

/-- The radius is suggested for a misspelled one, and it has a value. -/
theorem radius_suggested :
    let misspelled :=
      evaluate Preferences.standard (NameKind.identifier.node "raduis" ⟨0, 6⟩) withRadius
    misspelled.reports = [⟨.unknownVariable "raduis" (some "radius"), ⟨0, 6⟩, none⟩]
      ∧ "radius" ≠ "raduis"
      ∧ (evaluate Preferences.standard (NameKind.identifier.node "radius" ⟨0, 6⟩)
          misspelled.scope).value.isSome = true := by
  intro misspelled
  have reports : misspelled.reports
      = [⟨.unknownVariable "raduis" (some "radius"), ⟨0, 6⟩, none⟩] := rfl
  have reported :
      ⟨.unknownVariable "raduis" (some "radius"), ⟨0, 6⟩, none⟩ ∈ misspelled.reports := by
    rw [reports]
    exact List.mem_singleton_self _
  have noResultName : "radius" ∉ lastResultNames := by decide
  obtain ⟨different, resolved⟩ := (suggestion_resolves_iff Preferences.standard withRadius reported
    rfl).mpr fun exception => noResultName exception.2.1
  exact ⟨reports, different, resolved ⟨0, 6⟩⟩

/-- Before there is a result, the name of the last result is suggested for itself, and it has no
value. -/
theorem last_result_suggested_for_itself :
    let unknown := evaluate Preferences.standard (NameKind.identifier.node "ans" ⟨0, 3⟩)
      (Scope.standard : Scope Float)
    unknown.reports = [⟨.unknownVariable "ans" (some "ans"), ⟨0, 3⟩, none⟩]
      ∧ unknown.value.isSome = false ∧ unknown.scope = Scope.standard :=
  ⟨rfl, rfl, rfl⟩

end NoResult

end QuantityCalculus
