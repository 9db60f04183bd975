/-
Module: QuantityCalculus.Proofs.Product.Partial
Layer: Proofs
Purpose: Products and quotients that refuse to leave the range of exponents: where they have a
  result its exponents are the sums and differences of the given ones, and where the weights stay
  below the range they have a result.
Imports: QuantityCalculus.Proofs.Product.Canonical
Trusted boundary: none
Main exports: Combines, mul?_spec, mul?_isSome, div?_spec, div?_isSome, Combines.total_eq
Open obligations: none
-/
import QuantityCalculus.Proofs.Product.Canonical

namespace QuantityCalculus

namespace Product

variable {β : Type} [Keyed β]

/-- A merge that succeeds is the one that stops at the bounds, and has not reached them. -/
theorem mergeFactor?_spec {fs result : List (Factor β)} {f : Factor β}
    (h : mergeFactor? fs f = some result) :
    result = mergeFactor fs f
      ∧ ∀ name, degree name result = degree name fs + degree name [f] := by
  induction fs generalizing result with
  | nil =>
      rw [mergeFactor?, Option.some.injEq] at h
      exact ⟨h.symm, fun name => by simp [← h, degree]⟩
  | cons g fs ih =>
      rw [mergeFactor?] at h
      rw [mergeFactor]
      split at h
      next same =>
        obtain ⟨e, he, rfl⟩ := Option.map_eq_some_iff.mp h
        have sum : e.val = g.exponent.val + f.exponent.val := Exponent.ofInt?_eq_some_iff.mp he
        have clamped : g.exponent.add f.exponent = e := by
          apply Exponent.ext_val
          have lower := e.lower
          have upper := e.upper
          rw [sum, Exponent.add, Exponent.clamp_val_of_inRange (by omega) (by omega)]
        refine ⟨by rw [if_pos same, clamped], fun name => ?_⟩
        simp only [degree_cons, same, sum]
        by_cases named : key f.base = name
        · simp only [if_pos named, degree, total_nil]
          omega
        · simp [named, degree]
      next other =>
        obtain ⟨rest, hrest, rfl⟩ := Option.map_eq_some_iff.mp h
        obtain ⟨rfl, degrees⟩ := ih hrest
        refine ⟨by rw [if_neg other], fun name => ?_⟩
        rw [degree_cons, degrees, degree_cons name g fs, add_assoc]

/-- Factors whose merging succeeds are merged as without a check, with exact degrees. -/
theorem foldlM_mergeFactor?_spec {acc fs result : List (Factor β)}
    (h : fs.foldlM mergeFactor? acc = some result) :
    result = fs.foldl mergeFactor acc
      ∧ ∀ name, degree name result = degree name acc + degree name fs := by
  induction fs generalizing acc with
  | nil =>
      rw [List.foldlM_nil] at h
      cases h
      exact ⟨rfl, fun name => by simp [degree]⟩
  | cons f fs ih =>
      rw [List.foldlM_cons] at h
      obtain ⟨next, hnext, hrest⟩ := Option.bind_eq_some_iff.mp h
      obtain ⟨rfl, step⟩ := mergeFactor?_spec hnext
      obtain ⟨rfl, degrees⟩ := ih hrest
      refine ⟨rfl, fun name => ?_⟩
      rw [degrees, step, degree_cons name f fs, degree_cons name f []]
      simp [degree, add_assoc]

/-- A factor can be merged if the exponents of its name are in range together. -/
theorem mergeFactor?_isSome (fs : List (Factor β)) (f : Factor β)
    (bound : spread (key f.base) fs + f.exponent.val.natAbs < 2147483648) :
    ∃ result, mergeFactor? fs f = some result := by
  induction fs with
  | nil => exact ⟨[f], rfl⟩
  | cons g fs ih =>
      rw [spread_cons] at bound
      rw [mergeFactor?]
      split
      next same =>
        rw [if_pos same] at bound
        have inRange : Exponent.ofInt? (g.exponent.val + f.exponent.val)
            = some ⟨g.exponent.val + f.exponent.val, by omega, by omega⟩ :=
          Exponent.ofInt?_eq_some_iff.mpr rfl
        exact ⟨_, by rw [Exponent.add?, inRange, Option.map_some]⟩
      next other =>
        obtain ⟨rest, hrest⟩ := ih (by omega)
        exact ⟨g :: rest, by rw [hrest, Option.map_some]⟩

/-- Factors can be merged if the exponents of each name are in range together. -/
theorem foldlM_mergeFactor?_isSome (acc fs : List (Factor β))
    (bound : ∀ name, spread name acc + spread name fs < 2147483648) :
    ∃ result, fs.foldlM mergeFactor? acc = some result := by
  induction fs generalizing acc with
  | nil => exact ⟨acc, rfl⟩
  | cons f fs ih =>
      have here := bound (key f.base)
      rw [spread_cons, if_pos rfl] at here
      obtain ⟨next, hnext⟩ := mergeFactor?_isSome acc f (by omega)
      obtain ⟨result, hresult⟩ := ih next fun name => by
        have step :=
          weigh_mergeFactor_le (fun k => (if k = name then (1 : Int) else 0).natAbs) acc f
        rw [← (mergeFactor?_spec hnext).1] at step
        have there := bound name
        have split : spread name (f :: fs) = spread name [f] + spread name fs :=
          weigh_append _ [f] fs
        have single : spread name [f]
            = f.exponent.val.natAbs * (if key f.base = name then (1 : Int) else 0).natAbs := by
          simp [spread, indicator]
        have heavier : spread name next ≤ spread name acc + spread name [f] := by
          rw [single]
          exact step
        omega
      exact ⟨result, by rw [List.foldlM_cons, hnext]; exact hresult⟩

/-- Factors that put together those of one product with those of another one, raised to a power that
is `1` or `-1`, and nothing else. -/
structure Combines (sign : Int) (p q : Product β) (fs : List (Factor β)) : Prop where
  degree : ∀ name, degree name fs = degree name p.factors + sign * degree name q.factors
  weigh : ∀ weight : String → Nat, weigh (fun b => weight (key b)) fs
    ≤ weigh (fun b => weight (key b)) p.factors + weigh (fun b => weight (key b)) q.factors
  base : ∀ g ∈ fs, ∃ f ∈ p.factors ++ q.factors, g.base = f.base
  nodup : (names p.factors).Nodup → (names fs).Nodup

/-- A checked product combines the factors of both. -/
theorem mul?_spec {p q r : Product β} (h : p.mul? q = some r) :
    ∃ fs, r = ofFactors fs ∧ Combines 1 p q fs := by
  obtain ⟨fs, hfs, rfl⟩ := Option.map_eq_some_iff.mp h
  obtain ⟨rfl, degrees⟩ := foldlM_mergeFactor?_spec hfs
  refine ⟨_, rfl, fun name => ?_, fun weight => ?_, fun g hg => ?_, fun nodup => ?_⟩
  · rw [degrees, one_mul]
  · exact weigh_foldl_mergeFactor_le weight _ _
  · exact base_mem_foldl_mergeFactor hg
  · exact nodup_foldl_mergeFactor _ _ nodup

theorem mul?_isSome {p q : Product β}
    (bound : ∀ name, spread name p.factors + spread name q.factors < 2147483648) :
    ∃ r, p.mul? q = some r := by
  obtain ⟨fs, hfs⟩ := foldlM_mergeFactor?_isSome _ _ bound
  exact ⟨ofFactors fs, by rw [mul?, hfs, Option.map_some]⟩

/-- The factors of a divisor, if all of them have opposites. -/
theorem mapM_neg?_spec {fs inverted : List (Factor β)}
    (h : (fs.mapM fun f => f.exponent.neg?.map fun e => (⟨f.base, e⟩ : Factor β)) = some inverted) :
    (∀ name, degree name inverted = -degree name fs)
      ∧ (∀ weight : β → Nat, weigh weight inverted = weigh weight fs)
      ∧ ∀ g ∈ inverted, ∃ f ∈ fs, g.base = f.base := by
  induction fs generalizing inverted with
  | nil =>
      rw [List.mapM_nil] at h
      cases h
      exact ⟨fun _ => rfl, fun _ => rfl, by simp⟩
  | cons f fs ih =>
      rw [List.mapM_cons] at h
      obtain ⟨g, hg, h⟩ := Option.bind_eq_some_iff.mp h
      obtain ⟨rest, hrest, h⟩ := Option.bind_eq_some_iff.mp h
      obtain ⟨e, he, rfl⟩ := Option.map_eq_some_iff.mp hg
      cases h
      obtain ⟨degrees, weights, bases⟩ := ih hrest
      have opposite : e.val = -f.exponent.val := Exponent.ofInt?_eq_some_iff.mp he
      refine ⟨fun name => ?_, fun weight => ?_, fun g hg => ?_⟩
      · rw [degree_cons, degree_cons, degrees, opposite]
        split <;> omega
      · rw [weigh_cons, weigh_cons, weights, opposite, Int.natAbs_neg]
      · rcases List.mem_cons.mp hg with rfl | inTail
        · exact ⟨f, List.mem_cons_self, rfl⟩
        · obtain ⟨d, hd, same⟩ := bases g inTail
          exact ⟨d, List.mem_cons_of_mem _ hd, same⟩

omit [Keyed β] in
/-- Exponents in a symmetric range all have an opposite. -/
theorem mapM_neg?_isSome (fs : List (Factor β))
    (bound : ∀ f ∈ fs, f.exponent.val.natAbs < 2147483648) :
    ∃ inverted,
      (fs.mapM fun f => f.exponent.neg?.map fun e => (⟨f.base, e⟩ : Factor β)) = some inverted := by
  induction fs with
  | nil => exact ⟨[], rfl⟩
  | cons f fs ih =>
      have here := bound f List.mem_cons_self
      obtain ⟨rest, hrest⟩ := ih fun g hg => bound g (List.mem_cons_of_mem _ hg)
      have opposite : f.exponent.neg? = some ⟨-f.exponent.val, by omega, by omega⟩ :=
        Exponent.ofInt?_eq_some_iff.mpr rfl
      exact ⟨_, by rw [List.mapM_cons, hrest, opposite]; rfl⟩

/-- A checked quotient combines the factors of one with the inverted ones of the other. -/
theorem div?_spec {p q r : Product β} (h : p.div? q = some r) :
    ∃ fs, r = ofFactors fs ∧ Combines (-1) p q fs := by
  obtain ⟨inverted, hinverted, hmul⟩ := Option.bind_eq_some_iff.mp h
  obtain ⟨opposites, weights, inside⟩ := mapM_neg?_spec hinverted
  obtain ⟨fs, rfl, combined⟩ := mul?_spec hmul
  refine ⟨fs, rfl, fun name => ?_, fun weight => ?_, fun g hg => ?_, combined.nodup⟩
  · rw [combined.degree, opposites, one_mul, neg_one_mul]
  · rw [← weights]
    exact combined.weigh weight
  · obtain ⟨f, hf, same⟩ := combined.base g hg
    rcases List.mem_append.mp hf with left | right
    · exact ⟨f, List.mem_append_left _ left, same⟩
    · obtain ⟨d, hd, before⟩ := inside f right
      exact ⟨d, List.mem_append_right _ hd, same.trans before⟩

/-- A quotient can be formed if the exponents of each name are in range together. -/
theorem div?_isSome {p q : Product β}
    (bound : ∀ name, spread name p.factors + spread name q.factors < 2147483648) :
    ∃ r, p.div? q = some r := by
  obtain ⟨inverted, hinverted⟩ := mapM_neg?_isSome q.factors fun f hf => by
    have inSpread := weight_le_weigh (fun b => (indicator (key f.base) b).natAbs) hf
    have here := bound (key f.base)
    simp only [indicator, spread, if_true, Int.natAbs_one, mul_one] at inSpread here
    omega
  have weights := (mapM_neg?_spec hinverted).2.1
  obtain ⟨r, hr⟩ := mul?_isSome (p := p) (q := ⟨inverted⟩) fun name => by
    have here := bound name
    simp only [spread, weights] at here ⊢
    exact here
  exact ⟨r, by rw [div?, hinverted]; exact hr⟩

/-- What factors come to is put together from what the two products come to. -/
theorem Combines.total_eq {A : Type} [AddCommGroup A] {sign : Int} {p q : Product β}
    {fs : List (Factor β)} (combined : Combines sign p q fs) (value : String → A) :
    total (fun b => value (key b)) fs
      = total (fun b => value (key b)) p.factors
        + sign • total (fun b => value (key b)) q.factors := by
  have sum : exponents fs = exponents p.factors + sign • exponents q.factors := by
    ext name
    simp only [Finsupp.add_apply, Finsupp.smul_apply, exponents_apply, combined.degree, smul_eq_mul]
  rw [total_key, total_key, total_key, sum, map_add, map_smul]

end Product

end QuantityCalculus
