/-
Module: QuantityCalculus.Catalog
Layer: Product
Purpose: Named entries that are either base entries or derived from a product of base entries.
Imports: QuantityCalculus.Product.Basic, QuantityCalculus.Text.Suggestion
Trusted boundary: none
Main exports: Catalog, CatalogError, Catalog.addBase, Catalog.addDerived, Catalog.expansion,
  Catalog.derivedNamesFor
Open obligations: none
-/
import QuantityCalculus.Product.Basic
import QuantityCalculus.Text.Suggestion

namespace QuantityCalculus

/-- Why an entry could not be added or found. -/
inductive CatalogError where
  | entryExists (name : String)
  | unknownEntry (name : String) (suggestion : Option String)
deriving DecidableEq, Repr

def CatalogError.message : CatalogError → String
  | .entryExists name => "Entry '" ++ name ++ "' exists already."
  | .unknownEntry name _ => "Unknown entry '" ++ name ++ "'."

/-- An entry that is defined by a product of base entries. -/
structure DerivedEntry (μ : Type) where
  name : String
  expansion : Product String
  content : μ

/-- An entry that is not defined by others. -/
structure BaseEntry (μ : Type) where
  name : String
  content : μ

/-- Base entries and derived entries, each in the order in which they were added.  No name belongs
to two entries. -/
structure Catalog (μ : Type) where
  base : List (BaseEntry μ)
  derived : List (DerivedEntry μ)

namespace Catalog

variable {μ : Type}

def empty : Catalog μ := ⟨[], []⟩

instance : Inhabited (Catalog μ) := ⟨empty⟩

def findBase? (c : Catalog μ) (name : String) : Option (BaseEntry μ) :=
  c.base.find? fun e => e.name == name

def findDerived? (c : Catalog μ) (name : String) : Option (DerivedEntry μ) :=
  c.derived.find? fun e => e.name == name

def isBase (c : Catalog μ) (name : String) : Bool := (c.findBase? name).isSome

def contains (c : Catalog μ) (name : String) : Bool :=
  (c.findBase? name).isSome || (c.findDerived? name).isSome

/-- The names of all entries, base entries first. -/
def names (c : Catalog μ) : List String :=
  c.base.map (·.name) ++ c.derived.map (·.name)

/-- All names with their contents, base entries first. -/
def contents (c : Catalog μ) : List (String × μ) :=
  c.base.map (fun e => (e.name, e.content)) ++ c.derived.map (fun e => (e.name, e.content))

/-- Adds a base entry under a name that is still free. -/
def addBase (c : Catalog μ) (name : String) (content : μ) : Except CatalogError (Catalog μ) :=
  if c.contains name then .error (.entryExists name)
  else .ok { c with base := c.base ++ [⟨name, content⟩] }

/-- Adds a derived entry under a name that is still free. -/
def addDerived (c : Catalog μ) (name : String) (expansion : Product String) (content : μ) :
    Except CatalogError (Catalog μ) :=
  if c.contains name then .error (.entryExists name)
  else .ok { c with derived := c.derived ++ [⟨name, expansion, content⟩] }

/-- The error for a name without an entry, with the entry that was most likely meant. -/
def unknown (c : Catalog μ) (name : String) : CatalogError :=
  .unknownEntry name (Text.suggest c.names name)

/-- The product of base entries that an entry stands for. -/
def expansion (c : Catalog μ) (name : String) : Except CatalogError (Product String) :=
  match c.findBase? name with
  | some _ => .ok (Product.ofBase name)
  | none =>
      match c.findDerived? name with
      | some e => .ok e.expansion
      | none => .error (c.unknown name)

/-- The content of an entry, if there is one. -/
def find? (c : Catalog μ) (name : String) : Option μ :=
  match c.findBase? name with
  | some e => some e.content
  | none => (c.findDerived? name).map (·.content)

/-- The content of an entry. -/
def get (c : Catalog μ) (name : String) : Except CatalogError μ :=
  match c.find? name with
  | some content => .ok content
  | none => .error (c.unknown name)

/-- The names of the derived entries that stand for a given product. -/
def derivedNamesFor (c : Catalog μ) (expansion : Product String) : List String :=
  (c.derived.filter fun e => e.expansion.agrees expansion).map (·.name)

end Catalog

end QuantityCalculus
