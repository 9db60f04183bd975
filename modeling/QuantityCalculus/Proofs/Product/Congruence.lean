/-
Module: QuantityCalculus.Proofs.Product.Congruence
Layer: Proofs
Purpose: All operations on products lead to canonical products, and the exponents of what they lead
  to are calculated name by name from those of their arguments.  Hence products agree if and only if
  every name has the same exponent in both, and operations on products that agree have results that
  agree, or have none in the same cases.
Imports: QuantityCalculus.Proofs.Product.Algebra, QuantityCalculus.Proofs.Product.Names,
  QuantityCalculus.Proofs.Product.Range
Trusted boundary: none
Main exports: Product.Formed, Formed.canonical, exponentOf_mul, exponentOf_power, exponentOf_div,
  Product.Alike, Product.RespectedByOperations, Alike.respected, products_agree_by_exponents
Open obligations: none
-/
import QuantityCalculus.Proofs.Product.Algebra
import QuantityCalculus.Proofs.Product.Names
import QuantityCalculus.Proofs.Product.Range

namespace QuantityCalculus

open Exponent (InRange)

namespace Product

variable {β : Type} [Keyed β] {p p' q q' r : Product β}

/-! ### Canonical products -/

/-- The products that the operations lead to, starting with any factors. -/
inductive Formed : Product β → Prop where
  | ofFactors (fs : List (Factor β)) : Formed (ofFactors fs)
  | ofProducts {ps : List (Product β)} (parts : ∀ p ∈ ps, Formed p) : Formed (ofProducts ps)
  | mul {p q : Product β} (left : Formed p) (right : Formed q) : Formed (p.mul q)
  | div {p q : Product β} (dividend : Formed p) (divisor : Formed q) : Formed (p.div q)
  | power {p : Product β} (base : Formed p) (e : Exponent) : Formed (p.power e)
  | invert {p : Product β} (base : Formed p) : Formed p.invert
  | mul? {p q r : Product β} (left : Formed p) (right : Formed q)
      (multiplied : p.mul? q = some r) : Formed r
  | div? {p q r : Product β} (dividend : Formed p) (divisor : Formed q)
      (divided : p.div? q = some r) : Formed r
  | rationalPower {p r : Product β} {k : Rat} (base : Formed p)
      (raised : p.rationalPower k = .ok r) : Formed r

/-- No name stands twice in what an operation leads to, and no exponent of it is zero. -/
theorem Formed.canonical (formed : p.Formed) : p.Canonical := by
  cases formed with
  | ofFactors fs => exact canonical_ofFactors fs
  | ofProducts _ => exact canonical_ofProducts _
  | mul _ _ => exact canonical_mul _ _
  | div _ _ => exact canonical_mul _ _
  | power _ e => exact canonical_power _ e
  | invert _ => exact canonical_power _ _
  | mul? _ _ multiplied => exact canonical_of_mul? multiplied
  | div? _ _ divided => exact canonical_of_div? divided
  | rationalPower _ raised => exact canonical_of_rationalPower raised

/-! ### Exponents of results -/

section Exponents

variable (hp : p.Canonical) (name : String)

include hp

theorem exponentOf_power (e : Exponent) :
    (p.power e).exponentOf name = (p.exponentOf name).mul e := by
  apply Exponent.ext_val
  rw [exponentOf_val (canonical_power p e).nodup, degree_power_of_nodup hp.nodup, Exponent.mul,
    exponentOf_val hp.nodup]

theorem exponentOf_invert : p.invert.exponentOf name = (p.exponentOf name).mul Exponent.minusOne :=
  exponentOf_power hp name Exponent.minusOne

/-- The exponents of a product are the sums of exponents, which stop at the bounds. -/
theorem exponentOf_mul (hq : q.Canonical) :
    (p.mul q).exponentOf name = (p.exponentOf name).add (q.exponentOf name) := by
  apply Exponent.ext_val
  rw [exponentOf_val (canonical_mul p q).nodup, degree_mul hp.nodup hq.nodup, Exponent.add,
    exponentOf_val hp.nodup, exponentOf_val hq.nodup]

theorem exponentOf_div (hq : q.Canonical) : (p.div q).exponentOf name
    = (p.exponentOf name).add ((q.exponentOf name).mul Exponent.minusOne) := by
  have inverse : q.invert.Canonical := canonical_power q Exponent.minusOne
  rw [div, exponentOf_mul hp name inverse, exponentOf_invert hq]

end Exponents

/-! ### Products that agree -/

/-- Products that operations lead to and that agree. -/
structure Alike (p q : Product β) : Prop where
  left : p.Formed
  right : q.Formed
  agrees : p.agrees q = true

theorem alike_iff (hp : p.Formed) (hq : q.Formed) :
    Alike p q ↔ ∀ name, p.exponentOf name = q.exponentOf name := by
  rw [← agrees_iff_exponentOf hp.canonical hq.canonical]
  exact ⟨Alike.agrees, fun agrees => ⟨hp, hq, agrees⟩⟩

theorem Alike.exponentOf_eq (h : Alike p q) (name : String) :
    p.exponentOf name = q.exponentOf name := (alike_iff h.left h.right).mp h name

/-- Operations on products that are alike lead to products that are alike, or to none in the same
cases. -/
structure RespectedByOperations (alike : Product β → Product β → Prop) : Prop where
  ofFactors : ∀ fs gs : List (Factor β),
    List.Forall₂ (fun f g => f.agrees g = true) fs gs → alike (ofFactors fs) (ofFactors gs)
  ofProducts : ∀ ps qs, List.Forall₂ alike ps qs → alike (ofProducts ps) (ofProducts qs)
  mul : ∀ p p' q q', alike p p' → alike q q' → alike (p.mul q) (p'.mul q')
  div : ∀ p p' q q', alike p p' → alike q q' → alike (p.div q) (p'.div q')
  power : ∀ p p' e, alike p p' → alike (p.power e) (p'.power e)
  invert : ∀ p p', alike p p' → alike p.invert p'.invert
  mul? : ∀ p p' q q', alike p p' → alike q q' → Option.Rel alike (p.mul? q) (p'.mul? q')
  div? : ∀ p p' q q', alike p p' → alike q q' → Option.Rel alike (p.div? q) (p'.div? q')
  /-- Where several factors have no power, the order of the factors decides which of them is blamed,
  but not whether there is a power. -/
  rationalPower : ∀ p p' k, alike p p' →
    Option.Rel alike (p.rationalPower k).toOption (p'.rationalPower k).toOption

/-! ### Operations that always have a result -/

/-- Lists of factors that agree one by one are the same up to the bases that share a name. -/
theorem map_named_eq {fs gs : List (Factor β)}
    (pointwise : List.Forall₂ (fun f g => f.agrees g = true) fs gs) :
    fs.map Factor.named = gs.map Factor.named := by
  induction pointwise with
  | nil => rfl
  | cons first _ ih =>
      obtain ⟨names, exponents⟩ := Bool.and_eq_true_iff.mp first
      rw [List.map_cons, List.map_cons, ih, Factor.named, Factor.named, eq_of_beq names,
        eq_of_beq exponents]

/-- Factors that agree one by one are merged to products that are alike. -/
theorem alike_ofFactors {fs gs : List (Factor β)}
    (pointwise : List.Forall₂ (fun f g => f.agrees g = true) fs gs) :
    Alike (ofFactors fs) (ofFactors gs) := by
  refine (alike_iff (.ofFactors fs) (.ofFactors gs)).mpr fun name => Exponent.ext_val ?_
  rw [exponentOf_val (canonical_ofFactors fs).nodup, exponentOf_val (canonical_ofFactors gs).nodup,
    ← degree_named name (ofFactors fs), ← degree_named name (ofFactors gs), named_ofFactors,
    named_ofFactors, map_named_eq pointwise]

theorem Alike.mul (h : Alike p p') (k : Alike q q') : Alike (p.mul q) (p'.mul q') := by
  refine (alike_iff (.mul h.left k.left) (.mul h.right k.right)).mpr fun name => ?_
  rw [exponentOf_mul h.left.canonical name k.left.canonical,
    exponentOf_mul h.right.canonical name k.right.canonical, h.exponentOf_eq, k.exponentOf_eq]

theorem Alike.div (h : Alike p p') (k : Alike q q') : Alike (p.div q) (p'.div q') := by
  refine (alike_iff (.div h.left k.left) (.div h.right k.right)).mpr fun name => ?_
  rw [exponentOf_div h.left.canonical name k.left.canonical,
    exponentOf_div h.right.canonical name k.right.canonical, h.exponentOf_eq, k.exponentOf_eq]

theorem Alike.power (h : Alike p p') (e : Exponent) : Alike (p.power e) (p'.power e) := by
  refine (alike_iff (.power h.left e) (.power h.right e)).mpr fun name => ?_
  rw [exponentOf_power h.left.canonical, exponentOf_power h.right.canonical, h.exponentOf_eq]

theorem Alike.invert (h : Alike p p') : Alike p.invert p'.invert := by
  refine (alike_iff (.invert h.left) (.invert h.right)).mpr fun name => ?_
  rw [exponentOf_invert h.left.canonical, exponentOf_invert h.right.canonical, h.exponentOf_eq]

/-- Products that are alike one by one are multiplied to products that are alike. -/
theorem alike_ofProducts {ps qs : List (Product β)} (pointwise : List.Forall₂ Alike ps qs) :
    Alike (ofProducts ps) (ofProducts qs) := by
  suffices general : ∀ acc acc' : Product β, Alike acc acc' →
      Alike (ps.foldl Product.mul acc) (qs.foldl Product.mul acc') by
    have unity : Alike (ofFactors []) (ofFactors ([] : List (Factor β))) := alike_ofFactors .nil
    exact general _ _ unity
  induction pointwise with
  | nil => exact fun acc acc' h => h
  | cons first _ ih => exact fun acc acc' h => ih _ _ (h.mul first)

/-! ### Operations that may have none -/

/-- Answers are related if there are answers in the same cases, and those are related. -/
theorem rel_of_isSome {τ : Type} {R : τ → τ → Prop} {x y : Option τ}
    (together : x.isSome = true ↔ y.isSome = true)
    (related : ∀ a b, x = some a → y = some b → R a b) : Option.Rel R x y := by
  cases x with
  | none =>
      cases y with
      | none => exact .none
      | some b => exact absurd (together.mpr rfl) Bool.false_ne_true
  | some a =>
      cases y with
      | none => exact absurd (together.mp rfl) Bool.false_ne_true
      | some b => exact .some (related a b rfl rfl)

/-- Either both checked products exist and are alike, or neither does. -/
theorem Alike.mul? (h : Alike p p') (k : Alike q q') :
    Option.Rel Alike (p.mul? q) (p'.mul? q') := by
  refine rel_of_isSome ?_ fun r r' found found' => ?_
  · rw [mul?_isSome_iff h.left.canonical k.left.canonical,
      mul?_isSome_iff h.right.canonical k.right.canonical]
    simp only [h.exponentOf_eq, k.exponentOf_eq]
  · refine (alike_iff (.mul? h.left k.left found) (.mul? h.right k.right found')).mpr
      fun name => Exponent.ext_val ?_
    rw [exponentOf_of_mul? h.left.canonical k.left.canonical found,
      exponentOf_of_mul? h.right.canonical k.right.canonical found', h.exponentOf_eq,
      k.exponentOf_eq]

/-- Either both checked quotients exist and are alike, or neither does. -/
theorem Alike.div? (h : Alike p p') (k : Alike q q') :
    Option.Rel Alike (p.div? q) (p'.div? q') := by
  refine rel_of_isSome ?_ fun r r' found found' => ?_
  · rw [div?_isSome_iff h.left.canonical k.left.canonical,
      div?_isSome_iff h.right.canonical k.right.canonical]
    simp only [h.exponentOf_eq, k.exponentOf_eq]
  · refine (alike_iff (.div? h.left k.left found) (.div? h.right k.right found')).mpr
      fun name => Exponent.ext_val ?_
    rw [exponentOf_of_div? h.left.canonical k.left.canonical found,
      exponentOf_of_div? h.right.canonical k.right.canonical found', h.exponentOf_eq,
      k.exponentOf_eq]

theorem toOption_eq_some_iff {ε τ : Type} {x : Except ε τ} {a : τ} :
    x.toOption = some a ↔ x = .ok a := by
  cases x <;> simp [Except.toOption]

/-- Whether a canonical product has a rational power depends on its exponents only. -/
theorem rationalPower_isSome_iff (hp : p.Canonical) (k : Rat) :
    (p.rationalPower k).toOption.isSome = true
      ↔ ∀ name, ∃ n : Int, InRange n ∧ ((p.exponentOf name).val : Rat) * k = n := by
  rw [← forall_exponent_iff (P := fun e => ∃ n : Int, InRange n ∧ (e.val : Rat) * k = n)
    ⟨0, by decide, by simp [Exponent.zero]⟩ hp.nodup, ← rationalPower_isOk_iff,
    Option.isSome_iff_exists]
  simp only [toOption_eq_some_iff]

/-- Either both rational powers exist and are alike, or neither does. -/
theorem Alike.rationalPower (h : Alike p p') (k : Rat) :
    Option.Rel Alike (p.rationalPower k).toOption (p'.rationalPower k).toOption := by
  refine rel_of_isSome ?_ fun r r' found found' => ?_
  · rw [rationalPower_isSome_iff h.left.canonical, rationalPower_isSome_iff h.right.canonical]
    simp only [h.exponentOf_eq]
  · rw [toOption_eq_some_iff] at found found'
    refine (alike_iff (.rationalPower h.left found) (.rationalPower h.right found')).mpr
      fun name => Exponent.ext_val ?_
    have raised := exponentOf_of_rationalPower h.left.canonical found name
    have raised' := exponentOf_of_rationalPower h.right.canonical found' name
    rw [h.exponentOf_eq, ← raised'] at raised
    exact_mod_cast raised

/-! ### Laws -/

/-- No operation tells products apart that are alike. -/
theorem Alike.respected : RespectedByOperations (Alike : Product β → Product β → Prop) where
  ofFactors _ _ := alike_ofFactors
  ofProducts _ _ := alike_ofProducts
  mul _ _ _ _ := Alike.mul
  div _ _ _ _ := Alike.div
  power _ _ e h := h.power e
  invert _ _ := Alike.invert
  mul? _ _ _ _ := Alike.mul?
  div? _ _ _ _ := Alike.div?
  rationalPower _ _ k h := h.rationalPower k

/-- Among the products that operations form, agreement is an equivalence. -/
theorem agrees_equivalence :
    Equivalence fun p q : { p : Product β // p.Formed } => p.val.agrees q.val = true where
  refl p := agrees_refl p.property.canonical
  symm {p q} h := by rwa [agrees_comm q.property.canonical p.property.canonical]
  trans {p q r} h k := by
    rw [agrees_iff_exponentOf p.property.canonical q.property.canonical] at h
    rw [agrees_iff_exponentOf q.property.canonical r.property.canonical] at k
    rw [agrees_iff_exponentOf p.property.canonical r.property.canonical]
    exact fun name => (h name).trans (k name)

/-- Operations lead to canonical products.  Two of them agree if and only if every name has the same
exponent in both, which is an equivalence relation that all operations respect, be it with a result
or without one.  The order of the factors of a product does not matter: its exponents are their sums
up to the bounds. -/
theorem products_agree_by_exponents :
    (∀ p : Product β, p.Formed → p.Canonical)
      ∧ (∀ p q : Product β, p.Formed → q.Formed →
        (p.agrees q = true ↔ ∀ name, p.exponentOf name = q.exponentOf name))
      ∧ (Equivalence fun p q : { p : Product β // p.Formed } => p.val.agrees q.val = true)
      ∧ RespectedByOperations (Alike : Product β → Product β → Prop)
      ∧ ∀ p q : Product β, p.Formed → q.Formed → (p.mul q).agrees (q.mul p) = true
        ∧ ∀ name, (p.mul q).exponentOf name = (p.exponentOf name).add (q.exponentOf name) := by
  refine ⟨fun p => Formed.canonical,
    fun p q hp hq => agrees_iff_exponentOf hp.canonical hq.canonical,
    agrees_equivalence, Alike.respected, fun p q hp hq => ⟨?_, ?_⟩⟩
  · exact agrees_mul_comm hp.canonical.nodup hq.canonical.nodup
  · exact fun name => exponentOf_mul hp.canonical name hq.canonical

end Product

end QuantityCalculus
