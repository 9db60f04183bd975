/-
Module: QuantityCalculus.Product.Basic
Layer: Product
Purpose: Formal products of named bases with integer exponents, in which every name stands once.
Imports: QuantityCalculus.Product.Exponent
Trusted boundary: none
Main exports: Keyed, Factor, Product, Product.ofFactors, Product.mul, Product.div, Product.power,
  Product.rationalPower, Product.mul?, Product.div?, Product.agrees, Product.exponentOf
Open obligations: none
-/
import QuantityCalculus.Product.Exponent

namespace QuantityCalculus

/-- Bases that are told apart by a name.  Factors whose bases share a name are merged. -/
class Keyed (β : Type) where
  key : β → String

export Keyed (key)

/-- A name is its own key. -/
instance : Keyed String := ⟨id⟩

/-- A base raised to a power. -/
structure Factor (β : Type) where
  base : β
  exponent : Exponent
deriving DecidableEq, Repr

/-- A product of factors in the order in which their bases first appeared.  The functions below keep
it canonical: no two factors share a name and no exponent is zero. -/
structure Product (β : Type) where
  factors : List (Factor β)
deriving DecidableEq, Repr

namespace Factor

variable {β : Type}

/-- The factor raised to a further power; the exponent stops at its bounds. -/
def power (f : Factor β) (e : Exponent) : Factor β := ⟨f.base, f.exponent.mul e⟩

/-- The reciprocal factor; the exponent stops at its bounds. -/
def invert (f : Factor β) : Factor β := f.power Exponent.minusOne

/-- The factor raised to a rational power, which has to lead to an exponent again. -/
def rationalPower (f : Factor β) (q : Rat) : Except PowerError (Factor β) :=
  (f.exponent.scaled q).map fun e => ⟨f.base, e⟩

/-- Factors agree if they have the same name and exponent. -/
def agrees [Keyed β] (f g : Factor β) : Bool :=
  key f.base == key g.base && f.exponent == g.exponent

end Factor

namespace Product

variable {β : Type}

/-- The empty product. -/
def unity : Product β := ⟨[]⟩

def size (p : Product β) : Nat := p.factors.length

def isUnity (p : Product β) : Bool := p.factors.isEmpty

variable [Keyed β]

/-- Multiplies a list of factors by one more: into the factor of the same name if there is one, else
at the end.  The exponent stops at its bounds. -/
def mergeFactor (fs : List (Factor β)) (f : Factor β) : List (Factor β) :=
  match fs with
  | [] => [f]
  | g :: rest =>
      if key g.base = key f.base then ⟨g.base, g.exponent.add f.exponent⟩ :: rest
      else g :: mergeFactor rest f

/-- The factors of each name merged into the first of them, in the order of first appearance. -/
def merged (fs : List (Factor β)) : List (Factor β) :=
  fs.foldl mergeFactor []

/-- The product of a list of factors.  Factors whose exponents add up to zero are dropped. -/
def ofFactors (fs : List (Factor β)) : Product β :=
  ⟨(merged fs).filter fun f => f.exponent.val ≠ 0⟩

/-- The product that consists of one base. -/
def ofBase (b : β) : Product β := ofFactors [⟨b, Exponent.one⟩]

/-- The product of two products. -/
def mul (p q : Product β) : Product β := ofFactors (p.factors ++ q.factors)

/-- A product raised to a power. -/
def power (p : Product β) (e : Exponent) : Product β :=
  ofFactors (p.factors.map fun f => f.power e)

def invert (p : Product β) : Product β := p.power Exponent.minusOne

/-- The quotient of two products. -/
def div (p q : Product β) : Product β := p.mul q.invert

/-- The product of a list of products. -/
def ofProducts (ps : List (Product β)) : Product β := ps.foldl mul unity

/-- A product raised to a rational power, which has to lead to exponents again for every factor. -/
def rationalPower (p : Product β) (q : Rat) : Except PowerError (Product β) :=
  (p.factors.mapM fun f : Factor β => f.rationalPower q).map ofFactors

/-- Like `mergeFactor`, but there is no result if an exponent leaves its range. -/
def mergeFactor? (fs : List (Factor β)) (f : Factor β) : Option (List (Factor β)) :=
  match fs with
  | [] => some [f]
  | g :: rest =>
      if key g.base = key f.base then
        (g.exponent.add? f.exponent).map fun e => ⟨g.base, e⟩ :: rest
      else (mergeFactor? rest f).map (g :: ·)

/-- The product of two products, unless an exponent leaves its range. -/
def mul? (p q : Product β) : Option (Product β) :=
  (q.factors.foldlM mergeFactor? p.factors).map ofFactors

/-- The quotient of two products, unless an exponent leaves its range.  The exponents of the divisor
have to have opposites as well. -/
def div? (p q : Product β) : Option (Product β) := do
  let inverted ← q.factors.mapM fun f => f.exponent.neg?.map fun e => (⟨f.base, e⟩ : Factor β)
  p.mul? ⟨inverted⟩

/-- Whether two products have the same factors, in whatever order. -/
def agrees (p q : Product β) : Bool :=
  p.size == q.size && p.factors.all fun f => q.factors.any fun g => f.agrees g

/-- The exponent of the factor of a given name; zero if there is none. -/
def exponentOf (p : Product β) (name : String) : Exponent :=
  match p.factors.find? fun f => key f.base == name with
  | some f => f.exponent
  | none => Exponent.zero

end Product

end QuantityCalculus
