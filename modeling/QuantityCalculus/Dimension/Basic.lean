/-
Module: QuantityCalculus.Dimension.Basic
Layer: Dimension
Purpose: Physical dimensions: products of base dimensions.
Imports: QuantityCalculus.Product.Text
Trusted boundary: none
Main exports: Dimension, Dimension.base, Dimension.isDimensionless, Dimension.isBase, Dimension.text
Open obligations: none
-/
import QuantityCalculus.Product.Text

namespace QuantityCalculus

/-- A product of names of base dimensions. -/
abbrev Dimension := Product String

namespace Dimension

def dimensionless : Dimension := Product.unity

/-- The base dimension of a given name. -/
def base (name : String) : Dimension := Product.ofBase name

def isDimensionless (d : Dimension) : Bool := d.isUnity

/-- The number of base dimensions in a dimension. -/
def cardinality (d : Dimension) : Nat := d.size

/-- Whether a dimension is a single base dimension to the first power. -/
def isBase (d : Dimension) : Bool :=
  match d.factors with
  | [f] => f.exponent == Exponent.one
  | _ => false

/-- A dimension in words; the empty product is called a scalar. -/
def text (d : Dimension) : String :=
  if d.isUnity then "Scalar" else Product.text d " × " " / "

end Dimension

end QuantityCalculus
