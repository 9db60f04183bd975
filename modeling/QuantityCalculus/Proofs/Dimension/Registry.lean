/-
Module: QuantityCalculus.Proofs.Dimension.Registry
Layer: Proofs
Purpose: The dimensions that are known by name, whatever has been entered and refused before.  To
  look up the names of a dimension and to look up the dimension of a name are inverse to each other,
  and no name is listed twice.
Imports: QuantityCalculus.Proofs.Catalog.Entries, QuantityCalculus.Dimension.Registry
Trusted boundary: none
Main exports: Dimension.agrees_base_iff, DimensionRegistry.Grows, Grows.keeps, Grows.nodup_names,
  DimensionRequest, DimensionRegistry.answerAll, DimensionRegistry.Resolves, mem_namesFor_iff,
  nodup_namesFor, resolves_nameFor, names_and_dimensions_are_inverse
Open obligations: none
-/
import QuantityCalculus.Proofs.Catalog.Entries
import QuantityCalculus.Dimension.Registry

namespace QuantityCalculus

namespace Dimension

/-! ### Base dimensions -/

variable {d : Dimension} {name : String}

/-- Only the base dimension itself agrees with it. -/
theorem agrees_base_iff : d.agrees (base name) = true ↔ d = base name := by
  have single : base name = ⟨[⟨name, Exponent.one⟩]⟩ := rfl
  rw [single]
  constructor
  · intro agrees
    obtain ⟨factors⟩ := d
    obtain ⟨length, found⟩ := (Bool.and_eq_true _ _).mp agrees
    obtain ⟨⟨k, e⟩, rfl⟩ := List.length_eq_one_iff.mp (eq_of_beq length)
    simp only [List.all_cons, List.any_cons, List.all_nil, List.any_nil, Factor.agrees,
      Bool.and_true, Bool.or_false, Bool.and_eq_true, beq_iff_eq] at found
    obtain ⟨rfl, rfl⟩ := found
    rfl
  · rintro rfl
    simp [Product.agrees, Factor.agrees]

/-- A single factor leaves nothing to be counted twice, so that the side it stands on does not
matter. -/
theorem base_agrees_comm : (base name).agrees d = d.agrees (base name) := by
  have single : base name = ⟨[⟨name, Exponent.one⟩]⟩ := rfl
  obtain ⟨factors⟩ := d
  rw [single]
  match factors with
  | [] => rfl
  | [f] => simp [Product.agrees, Product.size, Factor.agrees, Bool.beq_comm]
  | f :: g :: rest => simp [Product.agrees, Product.size]

end Dimension

namespace DimensionRegistry

variable {r r' : DimensionRegistry} {name : String} {declared dimension d : Dimension}

/-! ### Declared dimensions -/

/-- A base dimension that is accepted is an entry of the catalog, and nothing else. -/
theorem addBase_catalog (h : r.addBase name = .ok (declared, r')) :
    r.catalog.addBase name () = .ok r'.catalog := by
  rw [addBase] at h
  cases added : r.catalog.addBase name () with
  | ok catalog =>
      rw [added] at h
      cases h
      rfl
  | error e =>
      rw [added] at h
      cases h

/-- A derived dimension that is accepted is an entry of the catalog, and nothing else. -/
theorem addDerived_catalog (h : r.addDerived name dimension = .ok (declared, r')) :
    r.catalog.addDerived name dimension () = .ok r'.catalog := by
  rw [addDerived] at h
  cases added : r.catalog.addDerived name dimension () with
  | ok catalog =>
      rw [added] at h
      cases h
      rfl
  | error e =>
      rw [added] at h
      cases h

theorem isBase_addBase (h : r.addBase name = .ok (declared, r')) : r'.isBase name = true :=
  Catalog.isBase_addBase (addBase_catalog h)

/-- What a declaration may do to the dimensions: nothing, or it enters a single name. -/
inductive Grows (r : DimensionRegistry) : DimensionRegistry → Prop where
  | refl : Grows r r
  | addBase {r' : DimensionRegistry} {name : String} {declared : Dimension}
      (added : r.addBase name = .ok (declared, r')) : Grows r r'
  | addDerived {r' : DimensionRegistry} {name : String} {declared dimension : Dimension}
      (added : r.addDerived name dimension = .ok (declared, r')) : Grows r r'

/-- A dimension that is known keeps its meaning. -/
theorem Grows.keeps (grown : r.Grows r') : r.catalog.Extends r'.catalog := by
  cases grown with
  | refl => exact .refl _
  | addBase added => exact Catalog.extends_addBase (addBase_catalog added)
  | addDerived added => exact Catalog.extends_addDerived (addDerived_catalog added)

/-- However a registry grows, its names stay different. -/
theorem Grows.nodup_names (grown : r.Grows r') (nodup : r.catalog.names.Nodup) :
    r'.catalog.names.Nodup := by
  cases grown with
  | refl => exact nodup
  | addBase added =>
      obtain ⟨free, catalog⟩ := Catalog.addBase_spec (addBase_catalog added)
      rw [catalog]
      exact Catalog.nodup_names_addBase nodup free
  | addDerived added =>
      obtain ⟨free, catalog⟩ := Catalog.addDerived_spec (addDerived_catalog added)
      rw [catalog]
      exact Catalog.nodup_names_addDerived nodup free

end DimensionRegistry

/-! ### Histories in which requests may be refused -/

/-- A dimension that a registry may be asked to enter. -/
inductive DimensionRequest where
  | base (name : String)
  | derived (name : String) (dimension : Dimension)

namespace DimensionRegistry

variable {r : DimensionRegistry} {name : String} {d : Dimension}

/-- The registry after a request.  One that is refused changes nothing. -/
def answer (r : DimensionRegistry) (request : DimensionRequest) : DimensionRegistry :=
  let added := match request with
    | .base name => r.addBase name
    | .derived name dimension => r.addDerived name dimension
  match added with
  | .ok (_, after) => after
  | .error _ => r

/-- The registry after several requests. -/
def answerAll (r : DimensionRegistry) (requests : List DimensionRequest) : DimensionRegistry :=
  requests.foldl answer r

/-- Whatever is requested, the registry keeps what it has. -/
theorem answer_grows (r : DimensionRegistry) (request : DimensionRequest) :
    r.Grows (r.answer request) := by
  cases request with
  | base name =>
      cases added : r.addBase name with
      | ok entered => simpa [answer, added] using Grows.addBase added
      | error e => simpa [answer, added] using Grows.refl
  | derived name dimension =>
      cases added : r.addDerived name dimension with
      | ok entered => simpa [answer, added] using Grows.addDerived added
      | error e => simpa [answer, added] using Grows.refl

/-- No name ever comes to belong to two dimensions. -/
theorem nodup_names_answerAll (nodup : r.catalog.names.Nodup) (requests : List DimensionRequest) :
    (r.answerAll requests).catalog.names.Nodup := by
  induction requests generalizing r with
  | nil => exact nodup
  | cons request rest ih => exact ih ((r.answer_grows request).nodup_names nodup)

/-! ### Looking up names and dimensions -/

/-- Whether looking up a name leads to a dimension. -/
def Resolves (r : DimensionRegistry) (name : String) (d : Dimension) : Prop :=
  ∃ found, r.get name = .ok found ∧ found.agrees d = true

/-- Only a base dimension has the name of one. -/
theorem baseName?_eq_some_iff :
    r.baseName? d = some name ↔ r.isBase name = true ∧ d = Dimension.base name := by
  constructor
  · intro named
    rw [baseName?] at named
    split at named
    next f single =>
      obtain ⟨factors⟩ := d
      obtain ⟨base, e⟩ := f
      obtain rfl : factors = [⟨base, e⟩] := single
      obtain ⟨condition, ⟨⟩⟩ := Option.ite_none_right_eq_some.mp named
      obtain ⟨first, known⟩ := (Bool.and_eq_true _ _).mp condition
      obtain rfl : e = Exponent.one := eq_of_beq first
      exact ⟨known, rfl⟩
    next => cases named
  · rintro ⟨known, rfl⟩
    have base : Dimension.base name = ⟨[⟨name, Exponent.one⟩]⟩ := rfl
    simp [base, baseName?, known]

/-- Derived dimensions are listed by what they are entered with, and a base dimension because it has
no other form than the one it is looked up in.  Both ways agree since no name is entered in both
tables. -/
theorem mem_namesFor_iff (nodup : r.catalog.names.Nodup) :
    name ∈ r.namesFor d ↔ r.Resolves name d := by
  have listed : name ∈ r.namesFor d ↔ r.baseName? d = some name
      ∨ ∃ e ∈ r.catalog.derived, e.name = name ∧ e.expansion.agrees d = true := by
    simp only [namesFor, Catalog.derivedNamesFor, List.mem_append, Option.mem_toList, List.mem_map,
      List.mem_filter]
    tauto
  rw [listed, baseName?_eq_some_iff]
  constructor
  · rintro (⟨known, rfl⟩ | ⟨e, he, named, agrees⟩)
    · exact ⟨_, (Catalog.expansion_eq_ok_iff nodup).mpr (.inl ⟨known, rfl⟩),
        Dimension.agrees_base_iff.mpr rfl⟩
    · exact ⟨_, (Catalog.expansion_eq_ok_iff nodup).mpr (.inr ⟨e, he, named, rfl⟩), agrees⟩
  · rintro ⟨found, looked, agrees⟩
    rcases (Catalog.expansion_eq_ok_iff nodup).mp looked with ⟨known, rfl⟩ | ⟨e, he, named, rfl⟩
    · exact .inl ⟨known, Dimension.agrees_base_iff.mp (Dimension.base_agrees_comm ▸ agrees)⟩
    · exact .inr ⟨e, he, named, agrees⟩

/-- No name is listed twice for a dimension. -/
theorem nodup_namesFor (nodup : r.catalog.names.Nodup) (d : Dimension) : (r.namesFor d).Nodup := by
  have base : (r.baseName? d).toList.Sublist (r.catalog.base.map (·.name)) := by
    cases named : r.baseName? d with
    | none => exact List.nil_sublist _
    | some name =>
        apply List.singleton_sublist.mpr
        obtain ⟨known, -⟩ := baseName?_eq_some_iff.mp named
        simpa [isBase, Catalog.isBase, Catalog.findBase?] using known
  have derived : (r.catalog.derivedNamesFor d).Sublist (r.catalog.derived.map (·.name)) :=
    List.filter_sublist.map _
  exact nodup.sublist (base.append derived)

/-- The first name of a dimension that has one leads back to it. -/
theorem resolves_nameFor (nodup : r.catalog.names.Nodup) (named : r.Resolves name d) :
    r.Resolves (r.nameFor d) d := by
  have listed := (mem_namesFor_iff nodup).mpr named
  cases names : r.namesFor d with
  | nil =>
      rw [names] at listed
      cases listed
  | cons first rest =>
      have preferred : r.nameFor d = first := by simp [nameFor, names]
      rw [preferred, ← mem_namesFor_iff nodup, names]
      exact List.mem_cons_self

/-- Whatever has been entered and refused before, the names listed for a dimension are exactly those
that lead to it when they are looked up, none of them is listed twice, and if there are any, the
name of the dimension is one of them. -/
theorem names_and_dimensions_are_inverse (requests : List DimensionRequest) :
    let r := empty.answerAll requests
    (∀ name d, name ∈ r.namesFor d ↔ ∃ found, r.get name = .ok found ∧ found.agrees d = true)
      ∧ (∀ d, (r.namesFor d).Nodup)
      ∧ ∀ d name, r.Resolves name d → r.Resolves (r.nameFor d) d := by
  have unnamed : empty.catalog.names.Nodup := List.nodup_nil
  have nodup := nodup_names_answerAll unnamed requests
  exact ⟨fun _ _ => mem_namesFor_iff nodup, nodup_namesFor nodup, fun _ _ => resolves_nameFor nodup⟩

/-- Of two names for lengths over times, the one that was entered first is the name of times to the
power minus one by lengths.  The request to enter it once more, as a base dimension, is refused. -/
theorem velocity_resolves :
    let perTime : Dimension := ⟨[⟨"Time", Exponent.minusOne⟩]⟩
    let velocity := (Dimension.base "Length").mul perTime
    let turned := perTime.mul (Dimension.base "Length")
    let r := empty.answerAll [.base "Length", .base "Time", .derived "Velocity" velocity,
      .base "Velocity", .derived "Speed" turned]
    r.Resolves "Speed" turned ∧ r.nameFor turned = "Velocity" ∧ r.Resolves "Velocity" turned := by
  intro perTime velocity turned r
  obtain ⟨-, -, back⟩ := names_and_dimensions_are_inverse [.base "Length", .base "Time",
    .derived "Velocity" velocity, .base "Velocity", .derived "Speed" turned]
  have speed : r.Resolves "Speed" turned := ⟨turned, rfl, rfl⟩
  have preferred : r.nameFor turned = "Velocity" := rfl
  exact ⟨speed, preferred, preferred ▸ back turned "Speed" speed⟩

end DimensionRegistry

end QuantityCalculus
