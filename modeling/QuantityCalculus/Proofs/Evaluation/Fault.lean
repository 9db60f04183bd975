/-
Module: QuantityCalculus.Proofs.Evaluation.Fault
Layer: Proofs
Purpose: The walk does not stop at the first error.  A name that is not known and a literal that
  cannot be read are reported wherever they stand in an expression, except in the unit behind a
  literal that cannot be read.
Imports: QuantityCalculus.Proofs.Evaluation.Cascade, QuantityCalculus.Proofs.Evaluation.Transaction
Trusted boundary: none
Main exports: Node.Faulty, ownReports_faulty, reportsAt_reached, reportsAt_shadowed, fault_reported
Open obligations: none
-/
import QuantityCalculus.Proofs.Evaluation.Cascade
import QuantityCalculus.Proofs.Evaluation.Transaction

namespace QuantityCalculus

variable {α : Type} [Scalar α]

/-! ### Faults of single nodes -/

/-- What may be wrong with a node whatever stands around it: its literal cannot be read, or its name
is not known.  A name stands for a variable, for the last result, or for a unit. -/
inductive Node.Faulty (s : Scope α) : Node → EvaluationError α → Prop where
  | number {literal : String} {span : Span} {e : LiteralError}
      (unreadable : (parseLiteral literal : Except LiteralError α) = .error e) :
      Faulty s (.number literal span) (.invalidNumber e)
  | measured {literal : String} {literalSpan : Span} {unit : Node} {span : Span} {e : LiteralError}
      (unreadable : (parseLiteral literal : Except LiteralError α) = .error e) :
      Faulty s (.measured literal literalSpan unit span) (.invalidNumber e)
  | identifier {name : String} {span : Span} (unbound : s.valueOf? name = none)
      (noResult : name ∈ lastResultNames → s.lastResult = none)
      (noUnit : s.units.contains name = false) :
      Faulty s (.identifier name span) (.unknownVariable name (Text.suggest s.knownNames name))
  | unitName {name : String} {span : Span} (noUnit : s.units.contains name = false) :
      Faulty s (.unitName name span)
        (.unknownUnit name (Text.suggest s.units.catalog.names name))

omit [Scalar α] in
theorem Scope.unit_unknown {s : Scope α} {name : String} (unknown : s.units.contains name = false) :
    s.unit name = .error (.catalog (s.units.catalog.unknown name)) := by
  simp only [UnitRegistry.contains, Catalog.contains, Bool.or_eq_false_iff,
    Option.isSome_eq_false_iff, Option.isNone_iff_eq_none] at unknown
  obtain ⟨noBase, noDerived⟩ := unknown
  simp [unit, UnitRegistry.get, Catalog.get, Catalog.find?, noBase, noDerived]

theorem literalValue_unreadable {literal : String} {e : LiteralError}
    (unreadable : (parseLiteral literal : Except LiteralError α) = .error e) (span : Span) :
    (literalValue span literal : Except (List (Diagnostic α)) α)
      = .error [⟨.invalidNumber e, span, none⟩] := by
  rw [literalValue, unreadable]
  rfl

/-- A name that is no variable, no result and no unit is reported once, with a suggestion. -/
theorem identifierValue_unknown {s : Scope α} {name : String} (unbound : s.valueOf? name = none)
    (noResult : name ∈ lastResultNames → s.lastResult = none)
    (noUnit : s.units.contains name = false) (span : Span) :
    identifierValue s name span
      = .error [⟨.unknownVariable name (Text.suggest s.knownNames name), span, none⟩] := by
  have noLast : (if lastResultNames.contains name then s.lastResult else none) = none := by
    simpa using noResult
  rw [identifierValue, unbound, noLast, Scope.unit_unknown noUnit]
  rfl

theorem unitValue_unknown {s : Scope α} {name : String} (noUnit : s.units.contains name = false)
    (span : Span) :
    unitValue s name span
      = .error [⟨.unknownUnit name (Text.suggest s.units.catalog.names name), span, none⟩] := by
  rw [unitValue, Scope.unit_unknown noUnit]
  rfl

variable [Elementary α]

/-- A faulty node reports its fault, at its own span. -/
theorem ownReports_faulty (preferences : Preferences) {m : Node} {s : Scope α}
    {e : EvaluationError α} (faulty : m.Faulty s e) :
    ownReports preferences m s = [⟨e, m.span, none⟩] := by
  cases faulty with
  | @number literal span e unreadable =>
      rw [ownReports_of_visited_nil preferences rfl, Node.handle,
        literalValue_unreadable unreadable]
      rfl
  | @measured literal literalSpan unit span e unreadable =>
      have shut : Node.isReadable α (.measured literal literalSpan unit span) = false := by
        simp [Node.isReadable, unreadable, Except.toBool]
      rw [ownReports_of_visited_nil preferences (Node.visited_of_unreadable shut), Node.handle,
        literalValue_unreadable unreadable]
      rfl
  | identifier unbound noResult noUnit =>
      rw [ownReports_of_visited_nil preferences rfl, Node.handle,
        identifierValue_unknown unbound noResult noUnit]
      rfl
  | unitName noUnit =>
      rw [ownReports_of_visited_nil preferences rfl, Node.handle, unitValue_unknown noUnit]
      rfl

/-! ### The scope of an expression -/

theorem Node.isExpression_children {n : Node} (expression : n.isExpression = true) :
    ∀ c ∈ n.children, c.isExpression = true := by
  cases n <;> simp_all [Node.isExpression, Node.children]

/-- Expressions leave the scope as it is, however many of them are evaluated. -/
theorem evaluateAll_scope (preferences : Preferences) {nodes : List Node}
    (expressions : ∀ n ∈ nodes, n.isExpression = true) (s : Scope α) :
    (evaluateAll preferences nodes s).scope = s := by
  induction nodes with
  | nil => rfl
  | cons n rest ih =>
      obtain ⟨first, others⟩ := List.forall_mem_cons.mp expressions
      simp [evaluateAll, evaluate_scope preferences first, ih others]

/-! ### Where a node is reached -/

/-- A position is reached if no literal that cannot be read stands above it. -/
def Node.Reaches (α : Type) [Scalar α] (n : Node) (p : Position) : Prop :=
  ∀ q m, Position.Above q p → n.at? q = some m → m.isReadable α = true

omit [Elementary α] in
theorem Node.reaches_nil (n : Node) : n.Reaches α [] := by
  rintro q m ⟨i, rest, same⟩
  simp at same

omit [Elementary α] in
/-- A position is reached through a child of a node that can be read. -/
theorem Node.reaches_cons_iff {n c : Node} {i : Nat} (child : n.children[i]? = some c)
    {p : Position} : n.Reaches α (i :: p) ↔ n.isReadable α = true ∧ c.Reaches α p := by
  constructor
  · intro reached
    refine ⟨reached [] n ⟨i, p, rfl⟩ rfl, ?_⟩
    rintro q m ⟨j, rest, rfl⟩ found
    exact reached (i :: q) m ⟨j, rest, rfl⟩ (by simpa [at?, child] using found)
  · rintro ⟨readable, inside⟩ q m ⟨j, rest, same⟩ found
    cases q with
    | nil =>
        cases found
        exact readable
    | cons k q =>
        obtain ⟨rfl, rfl⟩ := List.cons.inj same
        exact inside q m ⟨j, rest, rfl⟩ (by simpa [at?, child] using found)

/-- In an expression, a node that is reached reports what it reports when it stands alone. -/
theorem reportsAt_reached (preferences : Preferences) {n m : Node}
    (expression : n.isExpression = true) {p : Position} (occurs : n.at? p = some m)
    (reached : n.Reaches α p) (s : Scope α) :
    reportsAt preferences n s p = ownReports preferences m s := by
  induction p generalizing n with
  | nil =>
      cases occurs
      rfl
  | cons i p ih =>
      rw [Node.at?] at occurs
      split at occurs
      next c child =>
        obtain ⟨readable, below⟩ := (Node.reaches_cons_iff child).mp reached
        have visited := Node.visited_of_readable readable
        have inside := Node.isExpression_children expression
        have unchanged : (evaluateAll preferences (n.children.take i) s).scope = s :=
          evaluateAll_scope preferences (fun d hd => inside d (List.mem_of_mem_take hd)) s
        simp only [reportsAt, visited, child, unchanged]
        exact ih (inside c (List.mem_of_getElem? child)) occurs below
      next => cases occurs

/-- Behind a literal that cannot be read, nothing is reported. -/
theorem reportsAt_shadowed (preferences : Preferences) {n m : Node} {p q : Position}
    (above : q.Above p) (found : n.at? q = some m) (unreadable : m.isReadable α = false)
    (s : Scope α) : reportsAt preferences n s p = [] := by
  obtain ⟨i, rest, rfl⟩ := above
  induction q generalizing n s with
  | nil =>
      cases found
      simp [reportsAt, Node.visited_of_unreadable unreadable]
  | cons j q ih =>
      rw [List.cons_append, reportsAt]
      split
      next c visited =>
        have child := Node.getElem?_visited visited
        exact ih (by simpa [Node.at?, child] using found) _
      next => rfl

/-- Every fault in an expression is reported at the node that has it, unless the node stands in the
unit behind a literal that cannot be read.  There nothing is reported. -/
theorem fault_reported (s : Scope α) (preferences : Preferences) {n m : Node}
    (expression : n.isExpression = true) {p : Position} (occurs : n.at? p = some m)
    {e : EvaluationError α} (faulty : m.Faulty s e) :
    (n.Reaches α p → ⟨e, m.span, none⟩ ∈ (evaluateStatement s preferences n).1.diagnostics)
      ∧ (¬n.Reaches α p → reportsAt preferences n s p = []) := by
  constructor
  · intro reached
    apply reportsAt_subset preferences n s p
    rw [reportsAt_reached preferences expression occurs reached,
      ownReports_faulty preferences faulty]
    exact List.mem_singleton_self _
  · intro shadowed
    simp only [Node.Reaches, not_forall, exists_prop, Bool.not_eq_true] at shadowed
    obtain ⟨q, m', above, found, unreadable⟩ := shadowed
    exact reportsAt_shadowed preferences above found unreadable s

/-! ### An unknown unit behind a number -/

section Unknown

/-- A number in an unknown unit, added to an unknown name. -/
def unknownSum (literal : String) : Node :=
  .binary "+" ⟨"+", ⟨4, 5⟩⟩ (.identifier "foo" ⟨0, 3⟩)
    (.measured literal ⟨6, 11⟩ (.unitName "kmm" ⟨12, 15⟩) ⟨6, 15⟩) ⟨0, 15⟩

/-- The unknown unit of the second operand is reported although the first one has no value. -/
theorem unknown_unit_reported :
    (unknownSum "1.2_3").isExpression = true
      ∧ (unknownSum "1.2_3").at? [1, 0] = some (.unitName "kmm" ⟨12, 15⟩)
      ∧ (unknownSum "1.2_3").Reaches Float [1, 0]
      ∧ ⟨.unknownUnit "kmm" none, ⟨12, 15⟩, none⟩ ∈ (evaluateStatement
          (Scope.standard : Scope Float) Preferences.standard
            (unknownSum "1.2_3")).1.diagnostics := by
  have reached : (unknownSum "1.2_3").Reaches Float [1, 0] := by
    refine (Node.reaches_cons_iff rfl).mpr ⟨rfl, ?_⟩
    exact (Node.reaches_cons_iff rfl).mpr ⟨rfl, Node.reaches_nil _⟩
  have faulty : (Node.unitName "kmm" ⟨12, 15⟩).Faulty (Scope.standard : Scope Float)
      (.unknownUnit "kmm" none) := .unitName rfl
  exact ⟨rfl, rfl, reached, (fault_reported _ Preferences.standard rfl rfl faulty).1 reached⟩

/-- Behind a literal that cannot be read, the unknown unit is not reported. -/
theorem unit_behind_unreadable_unreported :
    (unknownSum "1.2.3").isExpression = true
      ∧ (unknownSum "1.2.3").at? [1, 0] = some (.unitName "kmm" ⟨12, 15⟩)
      ∧ (Node.unitName "kmm" ⟨12, 15⟩).Faulty (Scope.standard : Scope Float)
          (.unknownUnit "kmm" none)
      ∧ ((evaluateStatement (Scope.standard : Scope Float) Preferences.standard
          (unknownSum "1.2.3")).1.diagnostics.map fun d => (d.error.code, d.primary))
        = [("UNKNOWN_VARIABLE", ⟨0, 3⟩), ("INVALID_NUMBER", ⟨6, 15⟩)] :=
  ⟨rfl, rfl, .unitName rfl, rfl⟩

end Unknown

end QuantityCalculus
