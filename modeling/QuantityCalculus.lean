import QuantityCalculus.Calculator
import QuantityCalculus.Catalog
import QuantityCalculus.Dimension.Basic
import QuantityCalculus.Dimension.Registry
import QuantityCalculus.Evaluation.Diagnostic
import QuantityCalculus.Evaluation.Evaluator
import QuantityCalculus.Evaluation.Scope
import QuantityCalculus.Expression.Node
import QuantityCalculus.Expression.Run
import QuantityCalculus.Expression.Span
import QuantityCalculus.Expression.Symbol
import QuantityCalculus.Expression.Text
import QuantityCalculus.Numeral.Display
import QuantityCalculus.Numeral.Literal
import QuantityCalculus.Numeral.Shortest
import QuantityCalculus.Operator.Basic
import QuantityCalculus.Operator.Preflight
import QuantityCalculus.Operator.Signature
import QuantityCalculus.Operator.Standard
import QuantityCalculus.Operator.UnitRule
import QuantityCalculus.Order.Insertion
import QuantityCalculus.Preferences.Basic
import QuantityCalculus.Preferences.Document
import QuantityCalculus.Preferences.QuotedText
import QuantityCalculus.Product.Basic
import QuantityCalculus.Product.Exponent
import QuantityCalculus.Product.Text
import QuantityCalculus.Proofs.Catalog.Entries
import QuantityCalculus.Proofs.Dimension.Registry
import QuantityCalculus.Proofs.Evaluation.Cascade
import QuantityCalculus.Proofs.Evaluation.Fault
import QuantityCalculus.Proofs.Evaluation.Handling
import QuantityCalculus.Proofs.Evaluation.Layout
import QuantityCalculus.Proofs.Evaluation.Overflow
import QuantityCalculus.Proofs.Evaluation.Placement
import QuantityCalculus.Proofs.Evaluation.Registered
import QuantityCalculus.Proofs.Evaluation.Reports
import QuantityCalculus.Proofs.Evaluation.SingleReport
import QuantityCalculus.Proofs.Evaluation.Suggestion
import QuantityCalculus.Proofs.Evaluation.Transaction
import QuantityCalculus.Proofs.Evaluation.UnitRun
import QuantityCalculus.Proofs.Evaluation.Updates
import QuantityCalculus.Proofs.Evaluation.Walk
import QuantityCalculus.Proofs.Expression.Nesting
import QuantityCalculus.Proofs.Expression.Position
import QuantityCalculus.Proofs.Expression.Rebuilding
import QuantityCalculus.Proofs.Expression.Run
import QuantityCalculus.Proofs.Expression.UnitText
import QuantityCalculus.Proofs.Numeral.Digits
import QuantityCalculus.Proofs.Numeral.Grammar
import QuantityCalculus.Proofs.Numeral.Grouping
import QuantityCalculus.Proofs.Numeral.Literal
import QuantityCalculus.Proofs.Operator.Assembly
import QuantityCalculus.Proofs.Operator.Dimension
import QuantityCalculus.Proofs.Operator.Measure
import QuantityCalculus.Proofs.Operator.MismatchLabels
import QuantityCalculus.Proofs.Operator.UnitRule
import QuantityCalculus.Proofs.Order.Listing
import QuantityCalculus.Proofs.Product.Algebra
import QuantityCalculus.Proofs.Product.Canonical
import QuantityCalculus.Proofs.Product.Congruence
import QuantityCalculus.Proofs.Product.Degree
import QuantityCalculus.Proofs.Product.Names
import QuantityCalculus.Proofs.Product.Partial
import QuantityCalculus.Proofs.Product.Range
import QuantityCalculus.Proofs.Product.RationalPower
import QuantityCalculus.Proofs.Product.Text
import QuantityCalculus.Proofs.Quantity.Conversion
import QuantityCalculus.Proofs.Quantity.Equality
import QuantityCalculus.Proofs.Scalar.Equality
import QuantityCalculus.Proofs.Scalar.Exact
import QuantityCalculus.Proofs.Scalar.Factorial
import QuantityCalculus.Proofs.Scalar.Integer
import QuantityCalculus.Proofs.Scalar.Order
import QuantityCalculus.Proofs.Scalar.Rounding
import QuantityCalculus.Proofs.Scope.Declaration
import QuantityCalculus.Proofs.Scope.Growth
import QuantityCalculus.Proofs.Scope.History
import QuantityCalculus.Proofs.Scope.Refusal
import QuantityCalculus.Proofs.Scope.RegistrationOrder
import QuantityCalculus.Proofs.Scope.Registries
import QuantityCalculus.Proofs.Scope.SchemeConversion
import QuantityCalculus.Proofs.Text.EditDistance
import QuantityCalculus.Proofs.Text.Edits
import QuantityCalculus.Proofs.Text.LowerCase
import QuantityCalculus.Proofs.Text.Suggestion
import QuantityCalculus.Proofs.Units.Algebra
import QuantityCalculus.Proofs.Units.Built
import QuantityCalculus.Proofs.Units.ClosestUnit
import QuantityCalculus.Proofs.Units.Conversion
import QuantityCalculus.Proofs.Units.Convertible
import QuantityCalculus.Proofs.Units.Definition
import QuantityCalculus.Proofs.Units.Dimension
import QuantityCalculus.Proofs.Units.Exactness
import QuantityCalculus.Proofs.Units.Expansion
import QuantityCalculus.Proofs.Units.Factor
import QuantityCalculus.Proofs.Units.History
import QuantityCalculus.Proofs.Units.NormalForm
import QuantityCalculus.Proofs.Units.PrimitiveUnits
import QuantityCalculus.Proofs.Units.Registry
import QuantityCalculus.Proofs.Units.Scheme
import QuantityCalculus.Proofs.Units.Simplification
import QuantityCalculus.Proofs.Units.SimplifiedDimension
import QuantityCalculus.Proofs.Units.Text
import QuantityCalculus.Quantity.Basic
import QuantityCalculus.Quantity.Text
import QuantityCalculus.Scalar.Basic
import QuantityCalculus.Scalar.Binary64
import QuantityCalculus.Scalar.Double
import QuantityCalculus.Scalar.Exact
import QuantityCalculus.Scalar.Factorial
import QuantityCalculus.Scalar.Fraction
import QuantityCalculus.Text.Blank
import QuantityCalculus.Text.CaseTable
import QuantityCalculus.Text.EditDistance
import QuantityCalculus.Text.LowerCase
import QuantityCalculus.Text.Suggestion
import QuantityCalculus.Units.Basic
import QuantityCalculus.Units.Conversion
import QuantityCalculus.Units.Registry
import QuantityCalculus.Units.Scheme
import QuantityCalculus.Units.Simplification
import QuantityCalculus.Units.Text
