/-
Module: QuantityCalculus.Proofs.Evaluation.UnitRun
Layer: Proofs
Purpose: Runs of unit names that are multiplied and divided.  A run is refused at the first token
  that spells neither; any other run has a value wherever its names are known, a unit in which every
  name stands as often as it is multiplied, less as often as it is divided.
Imports: QuantityCalculus.Proofs.Scope.Registries, QuantityCalculus.Proofs.Units.Exactness,
  QuantityCalculus.Expression.Run
Trusted boundary: none
Main exports: UnitOperator.spellings, Token.Spells, Token.JoinsUnits, joinUnits_cases,
  foldUnits_error_iff, UnitStep, unitRun, occurrences, balance, Node.YieldsUnit, YieldsUnit.join,
  YieldsUnit.foldUnits, unit_runs_count_names
Open obligations: none
-/
import QuantityCalculus.Proofs.Scope.Registries
import QuantityCalculus.Proofs.Units.Exactness
import QuantityCalculus.Expression.Run

namespace QuantityCalculus

/-! ### Spellings -/

namespace UnitOperator

/-- The spellings of an operator that joins units. -/
def spellings : UnitOperator → List String
  | multiply => ["", "*", "×", "·", "at", "of"]
  | divide => ["/", "÷", "per", "every"]

def symbol : UnitOperator → String
  | multiply => "*"
  | divide => "/"

/-- How much the exponent of the unit behind an operator changes. -/
def sign : UnitOperator → Int
  | multiply => 1
  | divide => -1

end UnitOperator

namespace Token

variable {t : Token} {op : UnitOperator}

/-- A token spells an operator, whatever blanks there are around it. -/
def Spells (t : Token) (op : UnitOperator) : Prop := Text.trimBlanks t.literal ∈ op.spellings

instance : Decidable (t.Spells op) := inferInstanceAs (Decidable (_ ∈ _))

/-- A token spells a multiplication or a division. -/
def JoinsUnits (t : Token) : Prop := t.Spells .multiply ∨ t.Spells .divide

instance : Decidable t.JoinsUnits := inferInstanceAs (Decidable (_ ∨ _))

theorem binarySymbol_eq_symbol_iff : binarySymbol t.literal = op.symbol ↔ t.Spells op := by
  rw [Spells, binarySymbol]
  generalize Text.trimBlanks t.literal = text
  cases op <;> split <;> simp_all [UnitOperator.spellings, UnitOperator.symbol]

theorem ofLiteral?_eq_some_iff : UnitOperator.ofLiteral? t.literal = some op ↔ t.Spells op := by
  rw [← binarySymbol_eq_symbol_iff, UnitOperator.ofLiteral?]
  cases op <;> split <;> simp_all [UnitOperator.symbol]

theorem joinsUnits_iff_exists : t.JoinsUnits ↔ ∃ op, t.Spells op := by
  refine ⟨fun joins => joins.elim (⟨_, ·⟩) (⟨_, ·⟩), ?_⟩
  rintro ⟨_ | _, spells⟩
  · exact .inl spells
  · exact .inr spells

/-- No token spells two operators. -/
theorem Spells.unique {op' : UnitOperator} (h : t.Spells op) (h' : t.Spells op') : op = op' :=
  Option.some.inj ((ofLiteral?_eq_some_iff.mpr h).symm.trans (ofLiteral?_eq_some_iff.mpr h'))

end Token

/-! ### Refused runs -/

namespace Node

/-- Two units are joined by an operator that the token spells, or refused because it spells none. -/
theorem joinUnits_cases (left : Node) (token : Token) (right : Node) :
    (∃ op span, token.Spells op
        ∧ joinUnits left token right = .ok (unitProduct op token left right span))
      ∨ ¬token.JoinsUnits
        ∧ joinUnits left token right = .error (.unknownUnitOperator token.literal) := by
  rw [joinUnits]
  split
  next op found => exact .inl ⟨op, _, Token.ofLiteral?_eq_some_iff.mp found, rfl⟩
  next unknown =>
    refine .inr ⟨fun joins => ?_, rfl⟩
    obtain ⟨op, spells⟩ := Token.joinsUnits_iff_exists.mp joins
    rw [Token.ofLiteral?_eq_some_iff.mpr spells] at unknown
    cases unknown

theorem foldUnits_cons_of_ok {head right joined : Node} {token : Token}
    (h : joinUnits head token right = .ok joined) (rest : Run) :
    foldUnits head ((token, right) :: rest) = foldUnits joined rest := by
  simp only [foldUnits, List.foldlM_cons, h]
  rfl

theorem foldUnits_cons_of_error {head right : Node} {token : Token} {e : NodeError}
    (h : joinUnits head token right = .error e) (rest : Run) :
    foldUnits head ((token, right) :: rest) = .error e := by
  simp only [foldUnits, List.foldlM_cons, h]
  rfl

/-- A run is refused with the literal of its first token that spells no operator between units. -/
theorem foldUnits_error_iff {head : Node} {tail : Run} {e : NodeError} :
    foldUnits head tail = .error e
      ↔ ∃ step, tail.find? (fun step => !decide step.1.JoinsUnits) = some step
        ∧ e = .unknownUnitOperator step.1.literal := by
  induction tail generalizing head with
  | nil => simp [foldUnits, pure, Except.pure]
  | cons step rest ih =>
      obtain ⟨token, right⟩ := step
      rcases joinUnits_cases head token right with ⟨op, span, spells, joined⟩ | ⟨strange, refused⟩
      · have joins : token.JoinsUnits := Token.joinsUnits_iff_exists.mpr ⟨op, spells⟩
        rw [foldUnits_cons_of_ok joined, ih, List.find?_cons_of_neg (by simpa using joins)]
      · rw [foldUnits_cons_of_error refused, List.find?_cons_of_pos (by simpa using strange)]
        simp [eq_comm]

end Node

/-! ### Runs of unit names -/

/-- The name of a unit in a run, where it stands, and the token in front of it. -/
structure UnitStep where
  token : Token
  name : String
  span : Span

/-- The run of a list of unit names. -/
def unitRun (steps : List UnitStep) : Run :=
  steps.map fun step => (step.token, .unitName step.name step.span)

/-- How often a name stands behind an operator. -/
def occurrences (op : UnitOperator) (name : String) (steps : List UnitStep) : Nat :=
  steps.countP fun step => decide (step.name = name ∧ step.token.Spells op)

/-- How often a name is multiplied, less how often it is divided. -/
def balance (name : String) (steps : List UnitStep) : Int :=
  occurrences .multiply name steps - occurrences .divide name steps

/-- A step counts once, with the sign of its operator, under the name that it brings in. -/
theorem balance_cons {step : UnitStep} {op : UnitOperator} (spells : step.token.Spells op)
    (name : String) (rest : List UnitStep) :
    balance name (step :: rest)
      = (if step.name = name then op.sign else 0) + balance name rest := by
  have other : ∀ op', step.token.Spells op' ↔ op = op' :=
    fun op' => ⟨fun spells' => spells.unique spells', fun same => same ▸ spells⟩
  by_cases here : step.name = name <;> cases op <;>
    simp [balance, occurrences, other, here, UnitOperator.sign] <;> omega

section Values

variable {α : Type} [Scalar α] [Elementary α] {preferences : Preferences} {s : Scope α}

/-- A node has a value without any report and leaves the scope as it is.  The value is a number of a
unit with given exponents, without factors of exponent zero. -/
def Node.YieldsUnit (n : Node) (preferences : Preferences) (s : Scope α)
    (exponent : String → Int) : Prop :=
  ∃ value, evaluate preferences n s = .success value s ∧ value.kind = .number
    ∧ Product.Canonical value.unit ∧ ∀ name, (value.unit.exponentOf name).val = exponent name

omit [Scalar α] [Elementary α] in
theorem CompoundUnit.exponentOf_ofNamed (v : NamedUnit α) (name : String) :
    ((CompoundUnit.ofNamed v).exponentOf name).val = if v.symbol = name then 1 else 0 := by
  have canonical : Product.Canonical (CompoundUnit.ofNamed v) := Product.canonical_ofFactors _
  rw [Product.exponentOf_val canonical.nodup, CompoundUnit.ofNamed_eq, Product.degree_cons]
  exact add_zero _

/-- The name of a unit stands for the first power of this unit. -/
theorem Node.yieldsUnit_unitName (reachable : s.Reachable) {name : String}
    (known : ∃ u, s.unit name = .ok u) (span : Span) :
    (Node.unitName name span).YieldsUnit preferences s
      fun other => if name = other then 1 else 0 := by
  obtain ⟨u, found⟩ := known
  obtain ⟨v, factors, rfl⟩ := reachable.linked.agree.unit name u found
  obtain rfl : u = CompoundUnit.ofNamed v := by
    rw [CompoundUnit.ofNamed_eq]
    exact congrArg Product.mk factors
  refine ⟨.ofUnit (.ofNamed v), ?_, rfl, Product.canonical_ofFactors _,
    CompoundUnit.exponentOf_ofNamed v⟩
  simp only [evaluate, unitValue, found]
  rfl

omit [Elementary α] in
/-- Two units are joined to the unit with the sums or the differences of their exponents. -/
theorem unitProductValue_exact {x y : Quantity α} (hx : Product.Canonical x.unit)
    (hy : Product.Canonical y.unit) (op : UnitOperator) (span : Span)
    (inRange : ∀ name,
      Exponent.InRange ((x.unit.exponentOf name).val + op.sign * (y.unit.exponentOf name).val))
    (opposites : ∀ name, y.unit.exponentOf name ≠ Exponent.minimum) :
    ∃ value, unitProductValue op x y span = .ok value ∧ value.kind = .number
      ∧ Product.Canonical value.unit
      ∧ ∀ name, (value.unit.exponentOf name).val
        = (x.unit.exponentOf name).val + op.sign * (y.unit.exponentOf name).val := by
  cases op with
  | multiply =>
      simp only [UnitOperator.sign, one_mul] at inRange ⊢
      have exact := CompoundUnit.productWith_exact hx hy
      obtain ⟨w, product⟩ := exact.succeeds.mpr inRange
      obtain ⟨canonical, exponents⟩ := exact.exponents w product
      exact ⟨.of (x.number * y.number) w, by rw [unitProductValue, product]; rfl, rfl, canonical,
        exponents⟩
  | divide =>
      simp only [UnitOperator.sign, neg_one_mul, ← sub_eq_add_neg] at inRange ⊢
      have exact := CompoundUnit.quotientBy_exact hx hy
      obtain ⟨w, quotient⟩ := exact.succeeds.mpr ⟨inRange, opposites⟩
      obtain ⟨canonical, exponents⟩ := exact.exponents w quotient
      exact ⟨.of (x.number / y.number) w, by rw [unitProductValue, quotient]; rfl, rfl, canonical,
        exponents⟩

/-- Two nodes that stand for units are joined to one that stands for their product or quotient. -/
theorem Node.YieldsUnit.join {left right : Node} {e d : String → Int}
    (hl : left.YieldsUnit preferences s e) (hr : right.YieldsUnit preferences s d)
    (op : UnitOperator) (token : Token) (span : Span)
    (inRange : ∀ name, Exponent.InRange (e name + op.sign * d name))
    (opposites : ∀ name, d name ≠ Exponent.minimum.val) :
    (Node.unitProduct op token left right span).YieldsUnit preferences s
      fun name => e name + op.sign * d name := by
  obtain ⟨x, evaluatedX, -, canonicalX, exponentsX⟩ := hl
  obtain ⟨y, evaluatedY, -, canonicalY, exponentsY⟩ := hr
  obtain ⟨value, joined, number, canonical, exponents⟩ :=
    unitProductValue_exact canonicalX canonicalY op span
      (fun name => by rw [exponentsX, exponentsY]; exact inRange name)
      (fun name least => opposites name (by rw [← exponentsY, least]))
  have evaluated : evaluate preferences (.unitProduct op token left right span) s
      = .success value s := by
    rw [evaluate, evaluatedX]
    simp [Outcome.both, Outcome.success, evaluatedY, joined, Outcome.ofExcept]
  exact ⟨value, evaluated, number, canonical, fun name => by rw [exponents, exponentsX, exponentsY]⟩

theorem Exponent.inRange_of_natAbs_le {n : Int} (h : n.natAbs ≤ 2147483647) :
    Exponent.InRange n := by
  rw [Exponent.InRange]
  omega

/-- A run that is not refused stands for a unit in which the balance of every name has been added to
its exponent.  Each step changes one exponent by one, so that none leaves its range on the way. -/
theorem Node.YieldsUnit.foldUnits {head n : Node} {e : String → Int} {steps : List UnitStep}
    (h : head.YieldsUnit preferences s e) (reachable : s.Reachable)
    (known : ∀ step ∈ steps, ∃ u, s.unit step.name = .ok u)
    (bound : ∀ name, (e name).natAbs + steps.length ≤ 2147483647)
    (folded : Node.foldUnits head (unitRun steps) = .ok n) :
    n.YieldsUnit preferences s fun name => e name + balance name steps := by
  induction steps generalizing head e with
  | nil =>
      cases folded
      simpa [balance, occurrences] using h
  | cons step rest ih =>
      obtain ⟨here, later⟩ := List.forall_mem_cons.mp known
      rcases joinUnits_cases head step.token (.unitName step.name step.span) with
        ⟨op, span, spells, joined⟩ | ⟨-, refused⟩
      · have onward : Node.foldUnits (.unitProduct op step.token head
            (.unitName step.name step.span) span) (unitRun rest) = .ok n :=
          (Node.foldUnits_cons_of_ok joined _).symm.trans folded
        have small : ∀ name, (e name + op.sign * if step.name = name then 1 else 0).natAbs
            ≤ (e name).natAbs + 1 := by
          intro name
          split <;> cases op <;> simp [UnitOperator.sign] <;> omega
        have room : ∀ name, (e name + op.sign * if step.name = name then 1 else 0).natAbs
            + rest.length ≤ 2147483647 := by
          intro name
          have before := bound name
          rw [List.length_cons] at before
          have after := small name
          omega
        have next := h.join (Node.yieldsUnit_unitName reachable here step.span) op step.token span
          (fun name => Exponent.inRange_of_natAbs_le (Nat.le_of_add_right_le (room name)))
          (fun name => by split <;> decide)
        have all := ih next later room onward
        simpa [balance_cons spells, add_assoc] using all
      · cases (Node.foldUnits_cons_of_error refused _).symm.trans folded

/-- A run of unit names is refused exactly if one of its tokens spells neither a multiplication nor
a division, with the literal of the first such token.  Any other run of fewer than 2 147 483 647
steps has a value without any report wherever its names are those of units.  In the unit of this
value the exponent of a name is one if the name is the head, plus how often it is multiplied, minus
how often it is divided. -/
theorem unit_runs_count_names (head : String) (headSpan : Span) (steps : List UnitStep) :
    let folded := Node.foldUnits (.unitName head headSpan) (unitRun steps)
    ((∃ e, folded = .error e) ↔ ∃ step ∈ steps, ¬step.token.JoinsUnits)
      ∧ (∀ e, folded = .error e ↔ ∃ step,
          steps.find? (fun step => !decide step.token.JoinsUnits) = some step
            ∧ e = .unknownUnitOperator step.token.literal)
      ∧ ((∀ step ∈ steps, step.token.JoinsUnits) → ∃ n, folded = .ok n
          ∧ (steps.length < 2147483647 → ∀ (preferences : Preferences) (s : Scope α), s.Reachable →
              (∀ name ∈ head :: steps.map UnitStep.name, ∃ u, s.unit name = .ok u) →
              n.YieldsUnit preferences s fun name =>
                (if name = head then 1 else 0) + occurrences .multiply name steps
                  - occurrences .divide name steps)) := by
  intro folded
  have refused : ∀ e, folded = .error e ↔ ∃ step,
      steps.find? (fun step => !decide step.token.JoinsUnits) = some step
        ∧ e = .unknownUnitOperator step.token.literal := by
    intro e
    rw [Node.foldUnits_error_iff, unitRun, List.find?_map]
    simp
  have some_strange : (∃ e, folded = .error e) ↔ ∃ step ∈ steps, ¬step.token.JoinsUnits := by
    constructor
    · rintro ⟨e, error⟩
      obtain ⟨step, found, -⟩ := (refused e).mp error
      exact ⟨step, List.mem_of_find?_eq_some found, by simpa using List.find?_some found⟩
    · rintro ⟨step, member, strange⟩
      have any : (steps.find? fun step => !decide step.token.JoinsUnits).isSome = true :=
        List.find?_isSome.mpr ⟨step, member, by simpa using strange⟩
      obtain ⟨first, found⟩ := Option.isSome_iff_exists.mp any
      exact ⟨_, (refused _).mpr ⟨first, found, rfl⟩⟩
  refine ⟨some_strange, refused, fun joins => ?_⟩
  cases outcome : folded with
  | error e =>
      obtain ⟨step, member, strange⟩ := some_strange.mp ⟨e, outcome⟩
      exact absurd (joins step member) strange
  | ok n =>
      refine ⟨n, rfl, fun short preferences s reachable known => ?_⟩
      obtain ⟨knownHead, knownSteps⟩ := List.forall_mem_cons.mp known
      have start : (Node.unitName head headSpan).YieldsUnit preferences s
          fun name => if head = name then 1 else 0 :=
        Node.yieldsUnit_unitName reachable knownHead headSpan
      have counted := start.foldUnits reachable
        (fun step member => knownSteps step.name (List.mem_map_of_mem member))
        (fun name => by split <;> simp <;> omega) outcome
      simpa only [balance, add_sub_assoc, eq_comm] using counted

end Values

/-! ### Metres and seconds -/

section Metres

/-- A scope that knows the metre and the second. -/
def motionScope : Scope Float :=
  Scope.standard.performAll
    [.request (.declare (.primitiveUnit "m" "Length" ⟨none, []⟩)),
      .request (.declare (.primitiveUnit "s" "Time" ⟨none, []⟩))]

/-- What follows the first metre in `m / s s ÷ s per s per m`. -/
def motionSteps : List UnitStep :=
  [⟨⟨"/", ⟨2, 3⟩⟩, "s", ⟨4, 5⟩⟩, ⟨⟨" ", ⟨5, 6⟩⟩, "s", ⟨6, 7⟩⟩, ⟨⟨"÷", ⟨8, 9⟩⟩, "s", ⟨10, 11⟩⟩,
    ⟨⟨"per", ⟨12, 15⟩⟩, "s", ⟨16, 17⟩⟩, ⟨⟨"per", ⟨18, 21⟩⟩, "m", ⟨22, 23⟩⟩]

/-- The metre cancels, and the second stays with the exponent -2. -/
theorem motion_run_counts :
    (∀ step ∈ motionSteps, step.token.JoinsUnits) ∧ motionSteps.length < 2147483647
      ∧ motionScope.Reachable
      ∧ (∀ name ∈ "m" :: motionSteps.map UnitStep.name, ∃ u, motionScope.unit name = .ok u)
      ∧ ∃ n value, Node.foldUnits (.unitName "m" ⟨0, 1⟩) (unitRun motionSteps) = .ok n
        ∧ evaluate Preferences.standard n motionScope = .success value motionScope
        ∧ Product.Canonical value.unit
        ∧ (value.unit.exponentOf "m").val = 0 ∧ (value.unit.exponentOf "s").val = -2 := by
  have joins : ∀ step ∈ motionSteps, step.token.JoinsUnits := by decide
  have short : motionSteps.length < 2147483647 := by decide
  have reachable : motionScope.Reachable := Scope.Reachable.standard.performAll _
  have metre : ∃ u, motionScope.unit "m" = .ok u := ⟨_, rfl⟩
  have second : ∃ u, motionScope.unit "s" = .ok u := ⟨_, rfl⟩
  have known : ∀ name ∈ "m" :: motionSteps.map UnitStep.name,
      ∃ u, motionScope.unit name = .ok u := by
    simp [motionSteps, metre, second]
  obtain ⟨n, folded, evaluates⟩ :=
    (@unit_runs_count_names Float _ _ "m" ⟨0, 1⟩ motionSteps).2.2 joins
  obtain ⟨value, evaluated, -, canonical, exponents⟩ :=
    evaluates short Preferences.standard motionScope reachable known
  refine ⟨joins, short, reachable, known, n, value, folded, evaluated, canonical, ?_, ?_⟩
  · rw [exponents]
    decide
  · rw [exponents]
    decide

end Metres

end QuantityCalculus
