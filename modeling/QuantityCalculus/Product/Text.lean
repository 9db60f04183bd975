/-
Module: QuantityCalculus.Product.Text
Layer: Product
Purpose: Products as text: the factors with positive exponents over those with negative ones.
Imports: QuantityCalculus.Product.Basic
Trusted boundary: none
Main exports: Factor.text, Product.text
Open obligations: none
-/
import QuantityCalculus.Product.Basic

namespace QuantityCalculus

variable {β : Type} [Keyed β]

/-- A name with its exponent raised behind it. -/
def Factor.text (f : Factor β) : String := key f.base ++ f.exponent.superscript

namespace Product

/-- The factors above the bar. -/
def numerator (p : Product β) : List (Factor β) := p.factors.filter fun f => 0 < f.exponent.val

/-- The factors below the bar, with positive exponents. -/
def denominator (p : Product β) : List (Factor β) :=
  (p.factors.filter fun f => f.exponent.val < 0).map Factor.invert

/-- A product as text, with `multiplied` between factors and `divided` as the bar.  Several factors
below the bar stand in parentheses.  Without a factor above the bar there is no bar, and the
exponents are negative. -/
def text (p : Product β) (multiplied divided : String) : String :=
  let join (fs : List (Factor β)) : String := multiplied.intercalate (fs.map Factor.text)
  match p.numerator, p.denominator with
  | [], [] => ""
  | [], below => join (below.map Factor.invert)
  | above, [] => join above
  | above, [single] => join above ++ divided ++ single.text
  | above, below => join above ++ divided ++ "(" ++ join below ++ ")"

end Product

end QuantityCalculus
