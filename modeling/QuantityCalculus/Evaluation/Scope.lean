/-
Module: QuantityCalculus.Evaluation.Scope
Layer: Evaluation
Purpose: The names that expressions are evaluated against, and their declaration.
Imports: QuantityCalculus.Dimension.Registry, QuantityCalculus.Units.Scheme,
  QuantityCalculus.Operator.Standard, QuantityCalculus.Preferences.Basic
Trusted boundary: none
Main exports: Scope, ScopeError, UnitDeclaration, Scope.standard, Scope.empty,
  Scope.addBaseDimension, Scope.addDerivedDimension, Scope.addPrimitiveUnit, Scope.addDerivedUnit,
  Scope.registerOperator, Scope.defineVariable, Scope.closestUnit, Scope.convertToScheme
Open obligations: none
-/
import QuantityCalculus.Dimension.Registry
import QuantityCalculus.Units.Scheme
import QuantityCalculus.Operator.Standard
import QuantityCalculus.Preferences.Basic

namespace QuantityCalculus

/-- Why a declaration was refused. -/
inductive ScopeError where
  | dimension (error : CatalogError)
  | unit (error : UnitRegistryError)
  | operator (error : OperatorTableError)
  | notABaseDimension (name : String)
  | readOnlyVariable (name : String)
deriving DecidableEq, Repr

def ScopeError.message : ScopeError → String
  | .dimension error => error.message
  | .unit error => error.message
  | .operator error => error.message
  | .notABaseDimension name =>
      "'" ++ name ++ "' is not a base dimension, so it cannot have a primitive unit"
  | .readOnlyVariable name => "Cannot redefine the constant '" ++ name ++ "'"

/-- What is declared about a unit besides its symbol and its definition. -/
structure UnitDeclaration where
  /-- The singular and the plural of its long name. -/
  longNames : Option (String × String)
  /-- The schemes that display values in it. -/
  schemes : List String
deriving DecidableEq, Repr, Inhabited

/-- The names of a unit that is declared under a symbol. -/
def UnitDeclaration.names (d : UnitDeclaration) (symbol : String) : UnitNames :=
  match d.longNames with
  | some (singular, plural) => ⟨symbol, singular, plural⟩
  | none => UnitNames.ofSymbol symbol

/-- A name that is bound to a value.  A constant keeps its value. -/
structure Binding (α : Type) where
  name : String
  value : Quantity α
  constant : Bool

/-- Everything that the names in an expression may refer to, and the result of the last
statement. -/
structure Scope (α : Type) where
  dimensions : DimensionRegistry
  units : UnitRegistry α
  operators : OperatorTable α
  /-- The variables, in the order in which they were first defined. -/
  bindings : List (Binding α)
  lastResult : Option (Quantity α)

namespace Scope

variable {α : Type}

/-- A scope without any names, not even of operators. -/
def empty : Scope α :=
  { dimensions := DimensionRegistry.empty
    units := UnitRegistry.empty
    operators := OperatorTable.empty
    bindings := []
    lastResult := none }

/-- A scope with the operators that are known from the start, and no other names. -/
def standard [Scalar α] [Elementary α] : Scope α :=
  { (empty : Scope α) with operators := OperatorTable.standard }

/-- The same scope, with nothing remembered of earlier questions about schemes. -/
def copy (s : Scope α) : Scope α := { s with units := s.units.copy }

/-! ### Declarations -/

/-- Declares a base dimension. -/
def addBaseDimension (s : Scope α) (name : String) : Except ScopeError Dimension × Scope α :=
  match s.dimensions.addBase name with
  | .ok (dimension, dimensions) => (.ok dimension, { s with dimensions := dimensions })
  | .error e => (.error (.dimension e), s)

/-- Gives a name to a dimension. -/
def addDerivedDimension (s : Scope α) (name : String) (dimension : Dimension) :
    Except ScopeError Dimension × Scope α :=
  match s.dimensions.addDerived name dimension with
  | .ok (dimension, dimensions) => (.ok dimension, { s with dimensions := dimensions })
  | .error e => (.error (.dimension e), s)

/-- Declares a primitive unit in a scope that knows its dimension. -/
def registerPrimitiveUnit (s : Scope α) (symbol dimension : String)
    (declaration : UnitDeclaration) : Except ScopeError (CompoundUnit α) × Scope α :=
  let unit : NamedUnit α := .primitive (declaration.names symbol) dimension
  match s.units.addPrimitive unit declaration.schemes with
  | .ok (unit, units) => (.ok unit, { s with units := units })
  | .error e => (.error (.unit e), s)

/-- Declares the primitive unit of a base dimension.  A dimension that is not known yet is declared
first, and stays declared even if the unit is refused. -/
def addPrimitiveUnit (s : Scope α) (symbol dimension : String) (declaration : UnitDeclaration) :
    Except ScopeError (CompoundUnit α) × Scope α :=
  if s.dimensions.contains dimension then
    if s.dimensions.isBase dimension then s.registerPrimitiveUnit symbol dimension declaration
    else (.error (.notABaseDimension dimension), s)
  else
    match s.addBaseDimension dimension with
    | (.ok _, s) => s.registerPrimitiveUnit symbol dimension declaration
    | (.error e, s) => (.error e, s)

/-- Declares a unit that stands for a quantity. -/
def addDerivedUnit [Scalar α] (s : Scope α) (symbol : String) (definition : Quantity α)
    (declaration : UnitDeclaration) : Except ScopeError (CompoundUnit α) × Scope α :=
  let unit : NamedUnit α :=
    .derived (declaration.names symbol) definition.number definition.unit
  match s.units.addDerived unit declaration.schemes with
  | .ok (unit, units) => (.ok unit, { s with units := units })
  | .error e => (.error (.unit e), s)

/-- Registers an operator. -/
def registerOperator (s : Scope α) (op : Operator α) : Except ScopeError (Operator α) × Scope α :=
  match s.operators.register op with
  | .ok operators => (.ok op, { s with operators := operators })
  | .error e => (.error (.operator e), s)

/-! ### Variables -/

/-- The binding of a name. -/
def binding? (s : Scope α) (name : String) : Option (Binding α) :=
  s.bindings.find? fun b => b.name == name

/-- The value of a variable. -/
def valueOf? (s : Scope α) (name : String) : Option (Quantity α) :=
  (s.binding? name).map (·.value)

/-- Replaces the binding of a name where it stands, or appends it. -/
def bind (bindings : List (Binding α)) (new : Binding α) : List (Binding α) :=
  match bindings with
  | [] => [new]
  | b :: rest => if b.name = new.name then new :: rest else b :: bind rest new

/-- Binds a name to a value, unless it is bound to a constant. -/
def defineVariable (s : Scope α) (name : String) (value : Quantity α) (constant : Bool) :
    Except ScopeError (Scope α) :=
  match s.binding? name with
  | some b =>
      if b.constant then .error (.readOnlyVariable name)
      else .ok { s with bindings := bind s.bindings ⟨name, value, constant⟩ }
  | none => .ok { s with bindings := bind s.bindings ⟨name, value, constant⟩ }

/-- The unit of a given name. -/
def unit (s : Scope α) (name : String) : Except UnitRegistryError (CompoundUnit α) :=
  s.units.get name

/-- The name of the dimension that angles have unless a unit is preferred for them. -/
def angleName : String := "Angle"

/-- What operators may look at. -/
def environment (s : Scope α) (preferences : Preferences) : Environment α :=
  { angleUnit := preferences.angleUnit.bind fun name => (s.unit name).toOption
    namedAngle := (s.dimensions.get angleName).toOption
    units := s.units }

/-! ### Schemes -/

variable [Scalar α]

/-- The unit of a scheme for a named dimension whose ratio to a source unit is closest to one. -/
def closestUnit (s : Scope α) (source : CompoundUnit α) (scheme dimension : String) :
    Except ScopeError (Option (CompoundUnit α)) × Scope α :=
  match s.dimensions.get dimension with
  | .error e => (.error (.dimension e), s)
  | .ok dimension =>
      let (unit, units) := s.units.closestUnit source scheme dimension
      (.ok unit, { s with units := units })

/-- A quantity in the closest unit of a scheme, if the scheme has one for its dimension. -/
def convertToScheme (s : Scope α) (q : Quantity α) (scheme : String) :
    Option (Quantity α) × Scope α :=
  match q.unit? with
  | none => (none, s)
  | some unit =>
      let (closest, units) := s.units.closestUnit unit scheme q.dimension
      (closest.bind fun target => (q.convertTo target).toOption, { s with units := units })

end Scope

end QuantityCalculus
