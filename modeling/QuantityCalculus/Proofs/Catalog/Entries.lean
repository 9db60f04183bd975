/-
Module: QuantityCalculus.Proofs.Catalog.Entries
Layer: Proofs
Purpose: The entries of a catalog, what adding an entry does to them, and that no name ever comes to
  belong to another entry.
Imports: Mathlib, QuantityCalculus.Catalog
Trusted boundary: none
Main exports: Catalog.contains_iff, contents_unique, expansion_eq_ok_iff, addBase_spec,
  addDerived_spec, nodup_names_addBase, nodup_names_addDerived, Catalog.Extends, extends_addBase,
  extends_addDerived
Open obligations: none
-/
import Mathlib
import QuantityCalculus.Catalog

namespace QuantityCalculus

namespace Catalog

variable {μ : Type}

/-! ### Names and contents -/

theorem map_fst_contents (c : Catalog μ) : c.contents.map Prod.fst = c.names := by
  simp [contents, names, Function.comp_def]

/-- The names of the entries are the names that are taken. -/
theorem contains_iff {c : Catalog μ} {name : String} : c.contains name = true ↔ name ∈ c.names := by
  simp [contains, findBase?, findDerived?, names]

/-- What is found under a name is among the contents, with that name. -/
theorem mem_contents_of_find? {c : Catalog μ} {name : String} {content : μ}
    (h : c.find? name = some content) : (name, content) ∈ c.contents := by
  rw [find?] at h
  split at h
  next e found =>
    cases h
    have same : e.name = name := by simpa using List.find?_some found
    refine List.mem_append_left _ (List.mem_map.mpr ⟨e, List.mem_of_find?_eq_some found, ?_⟩)
    rw [same]
  next =>
    obtain ⟨e, found, rfl⟩ := Option.map_eq_some_iff.mp h
    have same : e.name = name := by simpa using List.find?_some found
    refine List.mem_append_right _ (List.mem_map.mpr ⟨e, List.mem_of_find?_eq_some found, ?_⟩)
    rw [same]

/-- Where no name is used twice, there is one content for each name. -/
theorem contents_unique {c : Catalog μ} (nodup : c.names.Nodup) {x y : String × μ}
    (hx : x ∈ c.contents) (hy : y ∈ c.contents) (same : x.1 = y.1) : x = y := by
  rw [← map_fst_contents] at nodup
  exact List.inj_on_of_nodup_map nodup hx hy same

/-- A name stands for the product of the one derived entry it belongs to, or else for itself as a
base. -/
theorem expansion_eq_ok_iff {c : Catalog μ} (nodup : c.names.Nodup) {name : String}
    {p : Product String} :
    c.expansion name = .ok p
      ↔ (c.isBase name = true ∧ p = Product.ofBase name)
        ∨ ∃ e ∈ c.derived, e.name = name ∧ e.expansion = p := by
  have disjoint := List.disjoint_of_nodup_append nodup
  have unique := List.inj_on_of_nodup_map nodup.of_append_right
  rw [expansion, isBase]
  cases inBase : c.findBase? name with
  | some b =>
      have taken : name ∈ c.base.map (·.name) := by
        refine List.mem_map.mpr ⟨b, List.mem_of_find?_eq_some inBase, ?_⟩
        simpa using List.find?_some inBase
      constructor
      · intro found
        cases found
        exact .inl ⟨rfl, rfl⟩
      · rintro (⟨-, rfl⟩ | ⟨e, he, rfl, -⟩)
        · rfl
        · exact absurd (List.mem_map_of_mem he) (disjoint taken)
  | none =>
      cases inDerived : c.findDerived? name with
      | some e =>
          have he : e ∈ c.derived := List.mem_of_find?_eq_some inDerived
          have named : e.name = name := by simpa using List.find?_some inDerived
          constructor
          · intro found
            cases found
            exact .inr ⟨e, he, named, rfl⟩
          · rintro (⟨known, -⟩ | ⟨other, ho, sameName, rfl⟩)
            · cases known
            · rw [unique he ho (named.trans sameName.symm)]
      | none =>
          constructor
          · intro found
            cases found
          · rintro (⟨known, -⟩ | ⟨e, he, named, -⟩)
            · cases known
            · exact absurd named (by simpa using List.find?_eq_none.mp inDerived e he)

/-! ### Adding an entry -/

/-- A base entry is added at the end, under a name that was free. -/
theorem addBase_spec {c c' : Catalog μ} {name : String} {content : μ}
    (h : c.addBase name content = .ok c') :
    name ∉ c.names ∧ c' = { c with base := c.base ++ [⟨name, content⟩] } := by
  rw [addBase] at h
  split at h
  next => cases h
  next free =>
    cases h
    exact ⟨fun used => free (contains_iff.mpr used), rfl⟩

/-- A derived entry is added at the end, under a name that was free. -/
theorem addDerived_spec {c c' : Catalog μ} {name : String} {expansion : Product String}
    {content : μ}
    (h : c.addDerived name expansion content = .ok c') :
    name ∉ c.names ∧ c' = { c with derived := c.derived ++ [⟨name, expansion, content⟩] } := by
  rw [addDerived] at h
  split at h
  next => cases h
  next free =>
    cases h
    exact ⟨fun used => free (contains_iff.mpr used), rfl⟩

/-- A base entry under a free name leaves all names different. -/
theorem nodup_names_addBase {c : Catalog μ} (nodup : c.names.Nodup) {name : String} {content : μ}
    (free : name ∉ c.names) :
    (names { c with base := c.base ++ [⟨name, content⟩] }).Nodup := by
  have perm : (names { c with base := c.base ++ [⟨name, content⟩] }).Perm (name :: c.names) := by
    simp only [names, List.map_append, List.map_cons, List.map_nil, List.append_assoc,
      List.singleton_append]
    exact List.perm_middle
  exact perm.nodup_iff.mpr (List.nodup_cons.mpr ⟨free, nodup⟩)

/-- A derived entry under a free name leaves all names different. -/
theorem nodup_names_addDerived {c : Catalog μ} (nodup : c.names.Nodup) {name : String}
    {expansion : Product String} {content : μ} (free : name ∉ c.names) :
    (names { c with derived := c.derived ++ [⟨name, expansion, content⟩] }).Nodup := by
  have perm : (names { c with derived := c.derived ++ [⟨name, expansion, content⟩] }).Perm
      (name :: c.names) := by
    simp only [names, List.map_append, List.map_cons, List.map_nil, ← List.append_assoc]
    exact List.perm_append_singleton _ _
  exact perm.nodup_iff.mpr (List.nodup_cons.mpr ⟨free, nodup⟩)

theorem mem_contents_addBase {c : Catalog μ} {name : String} {content : μ} {x : String × μ} :
    x ∈ contents { c with base := c.base ++ [⟨name, content⟩] }
      ↔ x ∈ c.contents ∨ x = (name, content) := by
  simp only [contents, List.map_append, List.map_cons, List.map_nil, List.mem_append,
    List.mem_singleton]
  tauto

theorem mem_contents_addDerived {c : Catalog μ} {name : String} {expansion : Product String}
    {content : μ} {x : String × μ} :
    x ∈ contents { c with derived := c.derived ++ [⟨name, expansion, content⟩] }
      ↔ x ∈ c.contents ∨ x = (name, content) := by
  simp only [contents, List.map_append, List.map_cons, List.map_nil, List.mem_append,
    List.mem_singleton]
  tauto

theorem isBase_addBase {c c' : Catalog μ} {name : String} {content : μ}
    (h : c.addBase name content = .ok c') : c'.isBase name = true := by
  obtain ⟨-, rfl⟩ := addBase_spec h
  simp [isBase, findBase?]

theorem contains_of_isBase {c : Catalog μ} {name : String} (h : c.isBase name = true) :
    c.contains name = true := by
  rw [isBase] at h
  rw [contains, h, Bool.true_or]

/-! ### Growth -/

/-- Every name that belongs to an entry belongs to the same entry later on. -/
structure Extends (c c' : Catalog μ) : Prop where
  base : ∀ name e, c.findBase? name = some e → c'.findBase? name = some e
  derived : ∀ name e, c.findBase? name = none → c.findDerived? name = some e →
    c'.findBase? name = none ∧ c'.findDerived? name = some e

namespace Extends

variable {c c' : Catalog μ}

theorem refl (c : Catalog μ) : c.Extends c :=
  ⟨fun _ _ found => found, fun _ _ none found => ⟨none, found⟩⟩

/-- What a name led to, it goes on to lead to. -/
theorem find? (h : c.Extends c') {name : String} {content : μ}
    (found : c.find? name = some content) :
    c'.find? name = some content := by
  cases inBase : c.findBase? name with
  | some e => simpa [Catalog.find?, inBase, h.base name e inBase] using found
  | none =>
      obtain ⟨e, inDerived, rfl⟩ : ∃ e, c.findDerived? name = some e ∧ e.content = content := by
        simpa [Catalog.find?, inBase] using found
      obtain ⟨still, there⟩ := h.derived name e inBase inDerived
      simp [Catalog.find?, still, there]

/-- What a name stood for, it goes on to stand for. -/
theorem expansion (h : c.Extends c') {name : String} {p : Product String}
    (found : c.expansion name = .ok p) : c'.expansion name = .ok p := by
  cases inBase : c.findBase? name with
  | some e => simpa [Catalog.expansion, inBase, h.base name e inBase] using found
  | none =>
      cases inDerived : c.findDerived? name with
      | none => simp [Catalog.expansion, inBase, inDerived] at found
      | some e =>
          obtain ⟨still, there⟩ := h.derived name e inBase inDerived
          simpa [Catalog.expansion, inBase, inDerived, still, there] using found

theorem contains (h : c.Extends c') {name : String} (taken : c.contains name = true) :
    c'.contains name = true := by
  cases inBase : c.findBase? name with
  | some e => simp [Catalog.contains, h.base name e inBase]
  | none =>
      obtain ⟨e, inDerived⟩ : ∃ e, c.findDerived? name = some e := by
        simpa [Catalog.contains, inBase, Option.isSome_iff_exists] using taken
      simp [Catalog.contains, (h.derived name e inBase inDerived).2]

theorem isBase (h : c.Extends c') {name : String} (known : c.isBase name = true) :
    c'.isBase name = true := by
  obtain ⟨e, found⟩ := Option.isSome_iff_exists.mp known
  exact Option.isSome_iff_exists.mpr ⟨e, h.base name e found⟩

end Extends

/-- A catalog is extended by a base entry, if that is accepted. -/
theorem extends_addBase {c c' : Catalog μ} {name : String} {content : μ}
    (h : c.addBase name content = .ok c') : c.Extends c' := by
  obtain ⟨free, rfl⟩ := addBase_spec h
  refine ⟨fun other e found => ?_, fun other e none found => ⟨?_, found⟩⟩
  · simp only [findBase?] at found ⊢
    simp [List.find?_append, found]
  · have taken : other ∈ c.names := contains_iff.mp (by simp [contains, found])
    have different : name ≠ other := fun same => free (same ▸ taken)
    simp only [findBase?] at none ⊢
    simp [List.find?_append, none, different]

/-- A catalog is extended by a derived entry, if that is accepted. -/
theorem extends_addDerived {c c' : Catalog μ} {name : String} {expansion : Product String}
    {content : μ} (h : c.addDerived name expansion content = .ok c') : c.Extends c' := by
  obtain ⟨-, rfl⟩ := addDerived_spec h
  refine ⟨fun _ _ found => found, fun other e none found => ⟨none, ?_⟩⟩
  simp only [findDerived?] at found ⊢
  simp [List.find?_append, found]

end Catalog

end QuantityCalculus
