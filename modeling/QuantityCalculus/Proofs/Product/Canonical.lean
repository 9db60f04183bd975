/-
Module: QuantityCalculus.Proofs.Product.Canonical
Layer: Proofs
Purpose: Canonical products, the exponents of names in products of products and in powers, and when
  canonical products agree.
Imports: QuantityCalculus.Proofs.Product.Degree
Trusted boundary: none
Main exports: Product.Canonical, canonical_ofFactors, degree_ofFactors, degree_power,
  degree_ofProducts, exponentOf_val, isUnity_iff_degree, weigh_eq_of_degree, agrees_iff_degree,
  agrees_iff_exponentOf, agrees_comm, agrees_refl
Open obligations: none
-/
import QuantityCalculus.Proofs.Product.Degree

namespace QuantityCalculus

namespace Product

variable {β : Type} {A : Type} [AddCommGroup A] [Keyed β]

/-! ### Canonical products -/

/-- A product in which every name stands once and no exponent is zero.  All operations on products
lead to such products. -/
structure Canonical (p : Product β) : Prop where
  nodup : (names p.factors).Nodup
  nonzero : ∀ f ∈ p.factors, f.exponent.val ≠ 0

theorem canonical_unity : (unity : Product β).Canonical := ⟨List.nodup_nil, by simp [unity]⟩

/-- Merged factors have different names and no exponent that is zero. -/
theorem canonical_ofFactors (fs : List (Factor β)) : (ofFactors fs).Canonical where
  nodup := by
    have nodup : (names (merged fs)).Nodup := nodup_foldl_mergeFactor [] fs List.nodup_nil
    exact nodup.sublist (List.filter_sublist.map _)
  nonzero := by
    intro f hf
    simpa using (List.mem_filter.mp hf).2

theorem ofFactors_of_nodup {fs : List (Factor β)} (nodup : (names fs).Nodup) :
    ofFactors fs = ⟨fs.filter fun f => f.exponent.val ≠ 0⟩ := by
  unfold ofFactors merged
  rw [foldl_mergeFactor_of_nodup (by simpa using nodup), List.nil_append]

theorem degree_ofFactors_of_nodup {fs : List (Factor β)} (nodup : (names fs).Nodup)
    (name : String) : degree name (ofFactors fs).factors = degree name fs := by
  rw [ofFactors_of_nodup nodup, degree, total_filter]
  rfl

theorem Canonical.ofFactors_eq {p : Product β} (canonical : p.Canonical) :
    ofFactors p.factors = p := by
  rw [ofFactors_of_nodup canonical.nodup]
  have all : p.factors.filter (fun f => f.exponent.val ≠ 0) = p.factors :=
    List.filter_eq_self.mpr fun f hf => by simpa using canonical.nonzero f hf
  rw [all]

theorem canonical_mul (p q : Product β) : (p.mul q).Canonical := canonical_ofFactors _

theorem canonical_power (p : Product β) (e : Exponent) : (p.power e).Canonical :=
  canonical_ofFactors _

theorem canonical_foldl_mul {p : Product β} (canonical : p.Canonical) (ps : List (Product β)) :
    (ps.foldl mul p).Canonical := by
  induction ps generalizing p with
  | nil => exact canonical
  | cons q ps ih => exact ih (canonical_mul p q)

theorem canonical_ofProducts (ps : List (Product β)) : (ofProducts ps).Canonical :=
  canonical_foldl_mul canonical_unity ps

theorem base_mem_ofFactors {fs : List (Factor β)} {g : Factor β} (h : g ∈ (ofFactors fs).factors) :
    ∃ f ∈ fs, g.base = f.base := by
  obtain ⟨f, hf, same⟩ := base_mem_foldl_mergeFactor (List.mem_filter.mp h).1
  exact ⟨f, by simpa using hf, same⟩

theorem weigh_ofFactors_le (weight : String → Nat) (fs : List (Factor β)) :
    weigh (fun b => weight (key b)) (ofFactors fs).factors
      ≤ weigh (fun b => weight (key b)) fs := by
  unfold ofFactors merged
  rw [weigh_filter]
  simpa using weigh_foldl_mergeFactor_le weight [] fs

/-- Merging adds nothing to the weight of a list of factors if the weight of a base is a function of
its name. -/
theorem weigh_ofFactors_le_of_byName {weight : β → Nat} (byName : String → Nat)
    {fs : List (Factor β)} (named : ∀ f ∈ fs, byName (key f.base) = weight f.base) :
    weigh weight (ofFactors fs).factors ≤ weigh weight fs := by
  have before : weigh (fun b => byName (key b)) fs = weigh weight fs := weigh_congr named
  have after : weigh (fun b => byName (key b)) (ofFactors fs).factors
      = weigh weight (ofFactors fs).factors := by
    apply weigh_congr
    intro g hg
    obtain ⟨f, hf, same⟩ := base_mem_ofFactors hg
    rw [same, named f hf]
  rw [← before, ← after]
  exact weigh_ofFactors_le byName fs

theorem spread_ofFactors_le (name : String) (fs : List (Factor β)) :
    spread name (ofFactors fs).factors ≤ spread name fs :=
  weigh_ofFactors_le (fun k => (if k = name then (1 : Int) else 0).natAbs) fs

/-- Merging keeps all degrees, as long as the exponents of one name stay in range together. -/
theorem degree_ofFactors {name : String} {fs : List (Factor β)}
    (bound : spread name fs < 2147483648) :
    degree name (ofFactors fs).factors = degree name fs := by
  have noOther : spread name ([] : List (Factor β)) = 0 := rfl
  unfold ofFactors merged degree
  rw [total_filter]
  simpa [degree] using degree_foldl_mergeFactor [] fs (by omega)

/-- The total of a product over values of names is that of its factors, provided that no name that
counts leaves the range of exponents. -/
theorem total_ofFactors {value : String → A} {fs : List (Factor β)}
    (bound : ∀ name, value name ≠ 0 → spread name fs < 2147483648) :
    total (fun b => value (key b)) (ofFactors fs).factors = total (fun b => value (key b)) fs :=
  total_eq_of_degree fun name counts => degree_ofFactors (bound name counts)

/-! ### Powers and products of products -/

theorem names_map_power (fs : List (Factor β)) (e : Exponent) :
    names (fs.map fun f => f.power e) = names fs := by
  simp [names, Factor.power]

omit [AddCommGroup A] [Keyed β] in
/-- Powers weigh no more than their factors as often as the exponent says. -/
theorem weigh_map_power_le (weight : β → Nat) (fs : List (Factor β)) (e : Exponent) :
    weigh weight (fs.map fun f => f.power e) ≤ weigh weight fs * e.val.natAbs := by
  induction fs with
  | nil => simp
  | cons f fs ih =>
      have shorter : (f.exponent.mul e).val.natAbs ≤ f.exponent.val.natAbs * e.val.natAbs :=
        (Exponent.natAbs_clamp_le _).trans (Int.natAbs_mul _ _).le
      have scaled := Nat.mul_le_mul_right (weight f.base) shorter
      rw [Nat.mul_right_comm] at scaled
      simp only [List.map_cons, weigh_cons, Nat.add_mul]
      exact Nat.add_le_add scaled ih

theorem weigh_power_le (weight : String → Nat) (p : Product β) (e : Exponent) :
    weigh (fun b => weight (key b)) (p.power e).factors
      ≤ weigh (fun b => weight (key b)) p.factors * e.val.natAbs :=
  (weigh_ofFactors_le weight _).trans (weigh_map_power_le _ p.factors e)

/-- Where every name stands once, its exponent in a power is the multiple of its exponent, up to the
bounds. -/
theorem degree_map_power_of_nodup {fs : List (Factor β)} (nodup : (names fs).Nodup) (e : Exponent)
    (name : String) : degree name (fs.map fun f => f.power e)
      = (Exponent.clamp (degree name fs * e.val)).val := by
  induction fs with
  | nil => simp [degree, Exponent.clamp]
  | cons f fs ih =>
      simp only [names_cons, List.nodup_cons] at nodup
      have base : (f.power e).base = f.base := rfl
      rw [List.map_cons, degree_cons, degree_cons, base, ih nodup.2]
      by_cases same : key f.base = name
      · have absent : degree name fs = 0 := degree_eq_zero_of_notMem (same ▸ nodup.1)
        rw [absent, if_pos same, if_pos same]
        simp [Factor.power, Exponent.mul, Exponent.clamp]
      · rw [if_neg same, if_neg same, zero_add, zero_add]

/-- Every exponent of a power is the multiple of the exponent that is raised, up to the bounds. -/
theorem degree_power_of_nodup {p : Product β} (nodup : (names p.factors).Nodup) (e : Exponent)
    (name : String) :
    degree name (p.power e).factors = (Exponent.clamp (degree name p.factors * e.val)).val := by
  rw [power, degree_ofFactors_of_nodup (by rwa [names_map_power]),
    degree_map_power_of_nodup nodup]

theorem degree_power {p : Product β} (nodup : (names p.factors).Nodup) {e : Exponent}
    {name : String} (bound : (degree name p.factors * e.val).natAbs < 2147483648) :
    degree name (p.power e).factors = degree name p.factors * e.val := by
  rw [degree_power_of_nodup nodup, Exponent.clamp_val_of_natAbs_lt bound]

/-- Products that are multiplied one after the other weigh no more than all of them. -/
theorem weigh_foldl_mul_le (weight : String → Nat) (p : Product β) (ps : List (Product β)) :
    weigh (fun b => weight (key b)) (ps.foldl mul p).factors
      ≤ weigh (fun b => weight (key b)) p.factors
        + (ps.map fun q => weigh (fun b => weight (key b)) q.factors).sum := by
  induction ps generalizing p with
  | nil => simp
  | cons q ps ih =>
      have step := weigh_ofFactors_le weight (p.factors ++ q.factors)
      have rest := ih (p.mul q)
      rw [weigh_append] at step
      rw [List.foldl_cons, List.map_cons, List.sum_cons]
      exact rest.trans (by simp only [mul]; omega)

theorem weigh_ofProducts_le (weight : String → Nat) (ps : List (Product β)) :
    weigh (fun b => weight (key b)) (ofProducts ps).factors
      ≤ (ps.map fun q => weigh (fun b => weight (key b)) q.factors).sum := by
  simpa [ofProducts, unity] using weigh_foldl_mul_le weight unity ps

/-- Degrees add up in a product of many, as long as the exponents of one name stay in range. -/
theorem degree_foldl_mul {name : String} {p : Product β} {ps : List (Product β)}
    (bound : spread name p.factors + (ps.map fun q => spread name q.factors).sum < 2147483648) :
    degree name (ps.foldl mul p).factors
      = degree name p.factors + (ps.map fun q => degree name q.factors).sum := by
  induction ps generalizing p with
  | nil => simp
  | cons q ps ih =>
      rw [List.map_cons, List.sum_cons] at bound
      have lighter := spread_ofFactors_le name (p.factors ++ q.factors)
      have both : spread name (p.factors ++ q.factors)
          = spread name p.factors + spread name q.factors := weigh_append _ _ _
      have step :
          degree name (p.mul q).factors = degree name p.factors + degree name q.factors := by
        rw [mul, degree_ofFactors (by omega), degree, total_append]
        rfl
      rw [List.foldl_cons, ih (by simp only [mul]; omega), step, List.map_cons, List.sum_cons,
        add_assoc]

theorem degree_ofProducts {name : String} {ps : List (Product β)}
    (bound : (ps.map fun q => spread name q.factors).sum < 2147483648) :
    degree name (ofProducts ps).factors = (ps.map fun q => degree name q.factors).sum := by
  have empty : spread name (unity : Product β).factors = 0 := rfl
  have none : degree name (unity : Product β).factors = 0 := rfl
  rw [ofProducts, degree_foldl_mul (by omega), none, zero_add]

/-- No base comes up in a product of many that is not in one of them. -/
theorem base_mem_ofProducts {ps : List (Product β)} {g : Factor β}
    (h : g ∈ (ofProducts ps).factors) : ∃ p ∈ ps, ∃ f ∈ p.factors, g.base = f.base := by
  suffices general : ∀ acc : Product β, g ∈ (ps.foldl mul acc).factors →
      (∃ f ∈ acc.factors, g.base = f.base) ∨ ∃ p ∈ ps, ∃ f ∈ p.factors, g.base = f.base by
    exact (general unity h).resolve_left (by simp [unity])
  clear h
  induction ps with
  | nil => exact fun acc h => .inl ⟨g, h, rfl⟩
  | cons q ps ih =>
      intro acc h
      rcases ih (acc.mul q) h with ⟨f, hf, same⟩ | ⟨p, hp, f, hf, same⟩
      · obtain ⟨e, he, before⟩ := base_mem_ofFactors hf
        rcases List.mem_append.mp he with left | right
        · exact .inl ⟨e, left, same.trans before⟩
        · exact .inr ⟨q, List.mem_cons_self, e, right, same.trans before⟩
      · exact .inr ⟨p, List.mem_cons_of_mem _ hp, f, hf, same⟩

/-! ### Reading exponents off a canonical product -/

/-- The exponent of a name is its degree, if no name occurs twice. -/
theorem exponentOf_val {p : Product β} (nodup : (names p.factors).Nodup) (name : String) :
    (p.exponentOf name).val = degree name p.factors := by
  unfold exponentOf
  split
  next f found =>
    have same : key f.base = name := by simpa using List.find?_some found
    rw [← same, degree_eq_of_mem nodup (List.mem_of_find?_eq_some found)]
  next absent =>
    rw [degree_eq_zero_of_notMem]
    · rfl
    · simpa [names] using absent

/-- A canonical product is one exactly if all its degrees are zero. -/
theorem isUnity_iff_degree {p : Product β} (canonical : p.Canonical) :
    p.isUnity = true ↔ ∀ name, degree name p.factors = 0 := by
  constructor
  · intro h name
    rw [List.isEmpty_iff.mp h]
    rfl
  · intro h
    refine List.isEmpty_iff.mpr (List.eq_nil_iff_forall_not_mem.mpr fun f hf => ?_)
    exact canonical.nonzero f hf (degree_eq_of_mem canonical.nodup hf ▸ h (key f.base))

/-- Names with a degree other than zero cannot be missing. -/
theorem names_subset_of_degree {p q : Product β} (canonical : p.Canonical)
    (h : ∀ name, degree name p.factors = degree name q.factors) :
    names p.factors ⊆ names q.factors := by
  intro name member
  obtain ⟨f, hf, rfl⟩ := List.mem_map.mp member
  by_contra absent
  apply canonical.nonzero f hf
  rw [← degree_eq_of_mem canonical.nodup hf, h, degree_eq_zero_of_notMem absent]

/-- Where every name has the same exponent in two canonical products, the same names occur. -/
theorem names_perm_of_degree {p q : Product β} (hp : p.Canonical) (hq : q.Canonical)
    (h : ∀ name, degree name p.factors = degree name q.factors) :
    (names p.factors).Perm (names q.factors) :=
  (hp.nodup.subperm (names_subset_of_degree hp h)).antisymm
    (hq.nodup.subperm (names_subset_of_degree hq fun name => (h name).symm))

/-- Where every name has the same exponent in two canonical products, they weigh the same. -/
theorem weigh_eq_of_degree {p q : Product β} (hp : p.Canonical) (hq : q.Canonical)
    (h : ∀ name, degree name p.factors = degree name q.factors) (weight : String → Nat) :
    weigh (fun b => weight (key b)) p.factors = weigh (fun b => weight (key b)) q.factors := by
  have byName : ∀ {r : Product β}, r.Canonical → weigh (fun b => weight (key b)) r.factors
      = ((names r.factors).map fun name => (degree name r.factors).natAbs * weight name).sum := by
    intro r canonical
    rw [weigh, names, List.map_map]
    refine congrArg List.sum (List.map_congr_left fun f hf => ?_)
    rw [Function.comp_apply, degree_eq_of_mem canonical.nodup hf]
  rw [byName hp, byName hq]
  simp only [h]
  exact ((names_perm_of_degree hp hq h).map _).sum_eq

/-- Canonical products agree exactly if every name has the same exponent in both. -/
theorem agrees_iff_degree {p q : Product β} (hp : p.Canonical) (hq : q.Canonical) :
    p.agrees q = true ↔ ∀ name, degree name p.factors = degree name q.factors := by
  simp only [agrees, size, Bool.and_eq_true, beq_iff_eq, List.all_eq_true, List.any_eq_true,
    Factor.agrees]
  constructor
  · rintro ⟨length, found⟩ name
    have subset : names p.factors ⊆ names q.factors := by
      intro k hk
      obtain ⟨f, hf, rfl⟩ := List.mem_map.mp hk
      obtain ⟨g, hg, same, -⟩ := found f hf
      exact List.mem_map.mpr ⟨g, hg, same.symm⟩
    by_cases member : name ∈ names p.factors
    · obtain ⟨f, hf, rfl⟩ := List.mem_map.mp member
      obtain ⟨g, hg, same, exponent⟩ := found f hf
      rw [degree_eq_of_mem hp.nodup hf, same, degree_eq_of_mem hq.nodup hg, exponent]
    · have perm : (names p.factors).Perm (names q.factors) :=
        (hp.nodup.subperm subset).perm_of_length_le (by simp [names, length])
      rw [degree_eq_zero_of_notMem member,
        degree_eq_zero_of_notMem fun other => member (perm.mem_iff.mpr other)]
  · intro h
    have perm := names_perm_of_degree hp hq h
    refine ⟨?_, fun f hf => ?_⟩
    · simpa [names] using perm.length_eq
    · obtain ⟨g, hg, same⟩ := List.mem_map.mp (perm.subset (List.mem_map_of_mem hf))
      refine ⟨g, hg, same.symm, Exponent.ext_val ?_⟩
      rw [← degree_eq_of_mem hp.nodup hf, h, ← same, degree_eq_of_mem hq.nodup hg]

theorem agrees_iff_exponentOf {p q : Product β} (hp : p.Canonical) (hq : q.Canonical) :
    p.agrees q = true ↔ ∀ name, p.exponentOf name = q.exponentOf name := by
  rw [agrees_iff_degree hp hq]
  refine forall_congr' fun name => ?_
  rw [← exponentOf_val hp.nodup, ← exponentOf_val hq.nodup]
  exact ⟨Exponent.ext_val, congrArg Exponent.val⟩

theorem agrees_comm {p q : Product β} (hp : p.Canonical) (hq : q.Canonical) :
    p.agrees q = q.agrees p := by
  rw [Bool.eq_iff_iff, agrees_iff_exponentOf hp hq, agrees_iff_exponentOf hq hp]
  simp only [eq_comm]

theorem agrees_refl {p : Product β} (hp : p.Canonical) : p.agrees p = true :=
  (agrees_iff_exponentOf hp hp).mpr fun _ => rfl

/-! ### Products that change nothing -/

/-- Products of single factors with different names just stand side by side. -/
theorem ofProducts_singletons {fs : List (Factor β)}
    (canonical : (⟨fs⟩ : Product β).Canonical) :
    ofProducts (fs.map fun f => ofFactors [f]) = ⟨fs⟩ := by
  suffices general : ∀ acc : List (Factor β), (⟨acc ++ fs⟩ : Product β).Canonical →
      (fs.map fun f => ofFactors [f]).foldl mul ⟨acc⟩ = ⟨acc ++ fs⟩ by
    exact general [] canonical
  clear canonical
  induction fs with
  | nil => simp
  | cons f fs ih =>
      intro acc canonical
      have single : (⟨[f]⟩ : Product β).Canonical :=
        ⟨List.nodup_singleton _, fun g hg => canonical.nonzero g (by simp_all)⟩
      have extended : (⟨acc ++ [f]⟩ : Product β).Canonical := by
        refine ⟨canonical.nodup.sublist ?_, fun g hg => canonical.nonzero g ?_⟩
        · exact List.Sublist.map _ (List.Sublist.append_left (by simp) acc)
        · rcases List.mem_append.mp hg with old | new
          · exact List.mem_append_left _ old
          · exact List.mem_append_right _ (List.mem_singleton.mp new ▸ List.mem_cons_self)
      have step : (⟨acc⟩ : Product β).mul (ofFactors [f]) = ⟨acc ++ [f]⟩ := by
        rw [single.ofFactors_eq]
        exact extended.ofFactors_eq
      rw [List.map_cons, List.foldl_cons, step, ih _ (by simpa using canonical)]
      simp

/-- A canonical product is its own first power. -/
theorem power_one {p : Product β} (canonical : p.Canonical) :
    p.power Exponent.one = p := by
  have same : p.factors.map (fun f => f.power Exponent.one) = p.factors := by
    refine List.map_id'' (fun f => ?_) _
    have exponent : f.exponent.mul Exponent.one = f.exponent := by
      have lower := f.exponent.lower
      have upper := f.exponent.upper
      have value : f.exponent.val * Exponent.one.val = f.exponent.val := Int.mul_one _
      apply Exponent.ext_val
      rw [Exponent.mul, value, Exponent.clamp_val_of_inRange lower upper]
    rw [Factor.power, exponent]
  rw [Product.power, same, canonical.ofFactors_eq]

theorem ofProducts_singleton {p : Product β}
    (canonical : p.Canonical) : ofProducts [p] = p :=
  canonical.ofFactors_eq

end Product

end QuantityCalculus
