/-
Module: QuantityCalculus.Proofs.Text.Suggestion
Layer: Proofs
Purpose: A suggestion is one of the candidates, near to what was written, and no other candidate
  ranks before it.  There is one unless the name is too short or no candidate is near, and it does
  not depend on the order in which the candidates are listed, nor on how often.  How near a
  candidate is counts edits of the lower-case forms.
Imports: Mathlib, QuantityCalculus.Proofs.Text.EditDistance, QuantityCalculus.Proofs.Text.LowerCase,
  QuantityCalculus.Text.Suggestion
Trusted boundary: none
Main exports: caselessEdits, nameDistance_eq_caselessEdits, nameDistance_eq_zero_iff,
  nameDistance_lowerCase, RankedName.before_iff, RankedName.best?_spec, suggest_spec,
  suggest_eq_none_iff, Nearest, suggest_eq_some_iff, nearest_candidate_suggested
Open obligations: none
-/
import Mathlib
import QuantityCalculus.Proofs.Text.EditDistance
import QuantityCalculus.Proofs.Text.LowerCase
import QuantityCalculus.Text.Suggestion

namespace QuantityCalculus.Text

/-! ### The distance of two names -/

/-- The least number of edits between the lower-case forms of two texts. -/
noncomputable def caselessEdits (name written : String) : ℕ :=
  leastEdits (lowerCase name).toList (lowerCase written).toList

theorem nameDistance_eq_caselessEdits (name written : String) :
    nameDistance name written = caselessEdits name written :=
  editDistance_eq_leastEdits _ _

theorem nameDistance_comm (name written : String) :
    nameDistance name written = nameDistance written name :=
  editDistance_comm _ _

/-- Nothing but case tells names apart that have no distance. -/
theorem nameDistance_eq_zero_iff {name written : String} :
    nameDistance name written = 0 ↔ lowerCase name = lowerCase written :=
  editDistance_eq_zero_iff

/-- Case does not count. -/
theorem nameDistance_lowerCase (name written : String) :
    nameDistance (lowerCase name) (lowerCase written) = nameDistance name written := by
  rw [nameDistance, nameDistance, lowerCase_lowerCase, lowerCase_lowerCase]

/-! ### The candidate that ranks first -/

/-- The distance of a name counts first, its characters second. -/
def RankedName.rank (r : RankedName) : ℕ ×ₗ String := toLex (r.distance, r.name)

theorem RankedName.before_iff {a b : RankedName} : a.before b = true ↔ a.rank < b.rank := by
  simp [before, rank, Prod.Lex.toLex_lt_toLex]

/-- The best name of a list is kept while the list is passed through. -/
theorem RankedName.foldl_spec (rest : List RankedName) (a : RankedName) :
    let best := rest.foldl (fun best b => if b.before best then b else best) a
    best ∈ a :: rest ∧ ∀ b ∈ a :: rest, best.rank ≤ b.rank := by
  induction rest generalizing a with
  | nil => simp
  | cons b rest ih =>
      simp only [List.foldl_cons]
      split
      next sooner =>
        obtain ⟨listed, least⟩ := ih b
        have first := least b List.mem_cons_self
        refine ⟨List.mem_cons_of_mem a listed, List.forall_mem_cons.mpr ⟨?_, least⟩⟩
        exact first.trans (before_iff.mp sooner).le
      next notSooner =>
        obtain ⟨listed, least⟩ := ih a
        obtain ⟨first, others⟩ := List.forall_mem_cons.mp least
        have second : a.rank ≤ b.rank := not_lt.mp fun sooner => notSooner (before_iff.mpr sooner)
        refine ⟨?_, ?_⟩
        · rcases List.mem_cons.mp listed with same | later
          · exact List.mem_cons.mpr (.inl same)
          · exact List.mem_cons_of_mem _ (List.mem_cons_of_mem _ later)
        · intro c hc
          rcases List.mem_cons.mp hc with rfl | hc
          · exact first
          · rcases List.mem_cons.mp hc with rfl | hc
            · exact first.trans second
            · exact others c hc

/-- What is best is in the list, and nothing in the list ranks before it. -/
theorem RankedName.best?_spec {names : List RankedName} {r : RankedName}
    (h : best? names = some r) : r ∈ names ∧ ∀ b ∈ names, r.rank ≤ b.rank := by
  cases names with
  | nil => cases h
  | cons a rest =>
      cases h
      exact foldl_spec rest a

/-- What is suggested is a candidate within reach.  No candidate is nearer, and none that is as near
comes before it in the order of characters. -/
theorem suggest_spec {candidates : List String} {written name : String}
    (h : suggest candidates written = some name) :
    name ∈ candidates ∧ nameDistance name written ≤ maxNameDistance
      ∧ ∀ other ∈ candidates, nameDistance name written < nameDistance other written
          ∨ nameDistance name written = nameDistance other written ∧ name ≤ other := by
  rw [suggest] at h
  split at h
  next => cases h
  next =>
    obtain ⟨r, best, rfl⟩ := Option.map_eq_some_iff.mp h
    obtain ⟨listed, least⟩ := RankedName.best?_spec best
    obtain ⟨ranked, near⟩ := List.mem_filter.mp listed
    obtain ⟨name, candidate, rfl⟩ := List.mem_map.mp ranked
    have within : nameDistance name written ≤ maxNameDistance := by simpa using near
    refine ⟨candidate, within, fun other known => ?_⟩
    by_cases reach : nameDistance other written ≤ maxNameDistance
    · have beaten := least _ (List.mem_filter.mpr
        ⟨List.mem_map_of_mem known, by simpa using reach⟩)
      simpa [RankedName.rank, Prod.Lex.toLex_le_toLex] using beaten
    · exact .inl (within.trans_lt (not_le.mp reach))

/-! ### Candidates in any order -/

theorem RankedName.best?_eq_none_iff {names : List RankedName} :
    best? names = none ↔ names = [] := by
  cases names <;> simp [best?]

variable {candidates others : List String} {written name other : String}

/-- Nothing is suggested for short names, or if every candidate is too far away. -/
theorem suggest_eq_none_iff : suggest candidates written = none
    ↔ written.length < minCorrectableLength
      ∨ ∀ name ∈ candidates, maxNameDistance < nameDistance name written := by
  rw [suggest]
  split
  next short => exact iff_of_true rfl (.inl short)
  next long => simp [long, RankedName.best?_eq_none_iff, List.filter_eq_nil_iff]

/-- A candidate at most two edits away, in lower case, that comes first by the number of edits, and
by its own characters among those that are as near. -/
structure Nearest (candidates : List String) (written name : String) : Prop where
  candidate : name ∈ candidates
  near : caselessEdits name written ≤ 2
  first : ∀ other ∈ candidates,
    toLex (caselessEdits name written, name) ≤ toLex (caselessEdits other written, other)

/-- No two candidates both come first, not even if they differ in case only. -/
theorem Nearest.unique (h : Nearest candidates written name)
    (k : Nearest candidates written other) :
    name = other := by
  have same := le_antisymm (h.first other k.candidate) (k.first name h.candidate)
  exact congrArg Prod.snd (toLex.injective same)

/-- Which candidate is nearest depends on the set of candidates only. -/
theorem Nearest.congr (same : ∀ name, name ∈ others ↔ name ∈ candidates) :
    Nearest others written name ↔ Nearest candidates written name := by
  constructor
  · exact fun h => ⟨(same name).mp h.candidate, h.near, fun k hk => h.first k ((same k).mpr hk)⟩
  · exact fun h => ⟨(same name).mpr h.candidate, h.near, fun k hk => h.first k ((same k).mp hk)⟩

theorem nearest_of_suggest (h : suggest candidates written = some name) :
    Nearest candidates written name := by
  obtain ⟨candidate, near, first⟩ := suggest_spec h
  simp only [nameDistance_eq_caselessEdits] at near first
  exact ⟨candidate, near, fun other known => Prod.Lex.toLex_le_toLex.mpr (first other known)⟩

/-- What is suggested for a name that is long enough is the nearest candidate. -/
theorem suggest_eq_some_iff : suggest candidates written = some name
    ↔ minCorrectableLength ≤ written.length ∧ Nearest candidates written name := by
  constructor
  · intro h
    refine ⟨not_lt.mp fun short => ?_, nearest_of_suggest h⟩
    rw [suggest_eq_none_iff.mpr (.inl short)] at h
    cases h
  · rintro ⟨long, nearest⟩
    cases suggested : suggest candidates written with
    | some other => exact congrArg some ((nearest_of_suggest suggested).unique nearest)
    | none =>
        rcases suggest_eq_none_iff.mp suggested with short | far
        · exact absurd long (not_le.mpr short)
        · have tooFar := far name nearest.candidate
          rw [nameDistance_eq_caselessEdits] at tooFar
          exact absurd nearest.near (not_le.mpr tooFar)

/-- Nothing is suggested for names of fewer than three characters or more than two edits away from
every candidate, both in lower case.  For any other name the candidate is suggested that comes first
by the number of edits and then by its characters, in whatever order and however often the
candidates are listed.  Texts of ASCII characters are put in lower case letter by letter. -/
theorem nearest_candidate_suggested (candidates : List String) (written : String) :
    (suggest candidates written = none
        ↔ written.length < 3 ∨ ∀ name ∈ candidates, 2 < caselessEdits name written)
      ∧ (∀ name, suggest candidates written = some name
        ↔ 3 ≤ written.length ∧ Nearest candidates written name)
      ∧ (∀ others : List String, (∀ name, name ∈ others ↔ name ∈ candidates) →
        suggest others written = suggest candidates written)
      ∧ ∀ text : String, (∀ c ∈ text.toList, c.toNat < 0x80) → lowerCase text = text.toLower := by
  refine ⟨?_, fun name => suggest_eq_some_iff, fun others same => ?_, fun text => lowerCase_ascii⟩
  · simp only [← nameDistance_eq_caselessEdits]
    exact suggest_eq_none_iff
  · apply Option.ext
    intro name
    rw [suggest_eq_some_iff, suggest_eq_some_iff, Nearest.congr same]

/-- Of three candidates that are equally near, two of which differ in case only, the one is
suggested that comes first by its characters, also with the candidates in another order and one of
them twice. -/
theorem metre_suggested_in_any_order :
    (∀ name, name ∈ ["metre", "Meter", "meter", "metre"] ↔ name ∈ ["meter", "metre", "Meter"])
      ∧ suggest ["metre", "Meter", "meter", "metre"] "METR" = some "Meter"
      ∧ suggest ["meter", "metre", "Meter"] "METR" = some "Meter" := by
  have same : ∀ name, name ∈ ["metre", "Meter", "meter", "metre"]
      ↔ name ∈ ["meter", "metre", "Meter"] := by
    simp only [List.mem_cons, List.not_mem_nil]
    tauto
  obtain ⟨-, -, anyOrder, -⟩ := nearest_candidate_suggested ["meter", "metre", "Meter"] "METR"
  have suggested : suggest ["meter", "metre", "Meter"] "METR" = some "Meter" := rfl
  exact ⟨same, (anyOrder _ same).trans suggested, suggested⟩

end QuantityCalculus.Text
