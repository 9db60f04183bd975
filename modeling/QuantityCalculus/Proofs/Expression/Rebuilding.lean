/-
Module: QuantityCalculus.Proofs.Expression.Rebuilding
Layer: Proofs
Purpose: A node can be taken apart into its children and put together again.  Put together with the
  children that it has, a node that was built is the same again; put together with others, it keeps
  all that it says by itself.  What was there before is forgotten, except by parentheses, which go
  on covering it.
Imports: QuantityCalculus.Proofs.Expression.Nesting
Trusted boundary: none
Main exports: Node.Label, Node.label, withChildren_error, exists_withChildren,
  children_withChildren, label_withChildren, Node.Stable, Built.stable, Node.rebuild,
  rebuilding_is_faithful, rebuilding_forgets_iff
Open obligations: none
-/
import QuantityCalculus.Proofs.Expression.Nesting

namespace QuantityCalculus

namespace Span

variable {s t : Span}

instance : Decidable (s.Covers t) :=
  decidable_of_iff (s.start ≤ t.start ∧ t.stop ≤ s.stop)
    ⟨fun h => ⟨h.1, h.2⟩, fun h => ⟨h.start, h.stop⟩⟩

theorem extend_comm (s t : Span) : s.extend t = t.extend s := by
  simp only [extend, Nat.min_comm, Nat.max_comm]

/-- To extend a span by another one changes nothing exactly if it is covered already. -/
theorem extend_eq_self_iff : s.extend t = s ↔ s.Covers t := by
  constructor
  · intro same
    exact same ▸ extend_covers_right s t
  · rintro ⟨start, stop⟩
    simp only [extend, Nat.min_eq_left start, Nat.max_eq_left stop]

theorem extend_extend_self (s t : Span) : (s.extend t).extend t = s.extend t :=
  extend_eq_self_iff.mpr (extend_covers_right s t)

/-- A span in between makes no difference exactly if it is covered without it. -/
theorem extend_extend_eq_iff {u : Span} :
    (s.extend u).extend t = s.extend t ↔ (s.extend t).Covers u := by
  have swap : (s.extend u).extend t = (s.extend t).extend u := by
    simp only [extend, Nat.min_right_comm, Nat.max_right_comm]
  rw [swap, extend_eq_self_iff]

/-- Two spans in between make no difference, one after the other, exactly if both are covered
without them. -/
theorem extend_extend_extend_eq_iff {u v : Span} :
    ((s.extend u).extend v).extend t = (s.extend u).extend t ∧ (s.extend u).extend t = s.extend t
      ↔ (s.extend t).Covers u ∧ (s.extend t).Covers v := by
  rw [and_comm, extend_extend_eq_iff, extend_extend_eq_iff]
  refine and_congr_right fun covers => ?_
  rw [extend_extend_eq_iff.mpr covers]

end Span

namespace Node

/-! ### What a node says by itself -/

/-- A node without its children and its span. -/
inductive Label where
  | number (literal : String)
  | measured (literal : String) (literalSpan : Span)
  | identifier (name : String)
  | unitName (name : String)
  | unparsed (text : String)
  | binary (symbol : String) (token : Token)
  | unary (symbol : String) (fixity : Fixity) (token : Token)
  | parenthesis
  | unitPower (token : Token) (exponent : String) (exponentSpan : Span)
  | unitProduct (operator : UnitOperator) (token : Token)
  | definition (name : String) (nameSpan : Span) (constant : Bool)
  | statement
deriving DecidableEq, Repr

def label : Node → Label
  | number literal _ => .number literal
  | measured literal literalSpan _ _ => .measured literal literalSpan
  | identifier name _ => .identifier name
  | unitName name _ => .unitName name
  | unparsed text _ => .unparsed text
  | binary symbol token _ _ _ => .binary symbol token
  | unary symbol fixity token _ _ => .unary symbol fixity token
  | parenthesis _ _ => .parenthesis
  | unitPower _ token exponent exponentSpan _ => .unitPower token exponent exponentSpan
  | unitProduct operator token _ _ _ => .unitProduct operator token
  | definition name nameSpan constant _ _ => .definition name nameSpan constant
  | statement _ _ => .statement

/-- A label with the symbol of a binary operator computed anew. -/
def Label.respelled : Label → Label
  | binary _ token => binary (binarySymbol token.literal) token
  | other => other

variable {n m : Node} {children : List Node}

/-! ### Other children -/

/-- Children that are not as many as before are refused. -/
theorem withChildren_error (different : children.length ≠ n.children.length) :
    n.withChildren children = .error (.childCount n.kind n.children.length children.length) := by
  unfold withChildren
  split
  -- Only the last case is an error; in the others there are as many children as before.
  case h_13 => rfl
  all_goals exact absurd rfl different

theorem exists_withChildren : ∀ {n : Node} {children : List Node},
    children.length = n.children.length → ∃ m, n.withChildren children = .ok m
  | number .., [], _ | identifier .., [], _ | unitName .., [], _ | unparsed .., [], _ => ⟨_, rfl⟩
  | measured .., [_], _ | unary .., [_], _ | parenthesis .., [_], _ | unitPower .., [_], _
  | definition .., [_], _ | statement .., [_], _ => ⟨_, rfl⟩
  | binary .., [_, _], _ | unitProduct .., [_, _], _ => ⟨_, rfl⟩

theorem children_withChildren (rebuilt : n.withChildren children = .ok m) :
    m.children = children := by
  unfold withChildren at rebuilt
  split at rebuilt <;> cases rebuilt <;> rfl

theorem kind_withChildren (rebuilt : n.withChildren children = .ok m) : m.kind = n.kind := by
  unfold withChildren at rebuilt
  split at rebuilt <;> cases rebuilt <;> rfl

theorem label_withChildren (rebuilt : n.withChildren children = .ok m) :
    m.label = n.label.respelled := by
  unfold withChildren at rebuilt
  split at rebuilt <;> cases rebuilt <;> rfl

/-- A rebuilt node stays as it is if it is rebuilt with the same children. -/
theorem withChildren_twice (rebuilt : n.withChildren children = .ok m) :
    m.withChildren children = .ok m := by
  unfold withChildren at rebuilt
  split at rebuilt <;> cases rebuilt
  case h_8 => simp only [withChildren, Span.extend_extend_self]
  all_goals rfl

/-! ### Building a single node -/

namespace Form

/-- Whether a node of this form stands in parentheses. -/
def encloses : Form → Bool
  | parenthesis _ _ => true
  | _ => false

variable {form : Form} {n fresh : Node} {children others : List Node}

/-- A node has the children that it is built of. -/
theorem children_build (built : form.build children = some n) : n.children = children := by
  unfold build at built
  split at built
  case h_11 token left right =>
    unfold joinUnits at built
    split at built <;> cases built
    rfl
  all_goals cases built <;> rfl

/-- But for parentheses, to give a node other children is to build it of these in the first
place. -/
theorem withChildren_eq_ok_iff (plain : form.encloses = false)
    (built : form.build children = some n) :
    n.withChildren others = .ok fresh ↔ form.build others = some fresh := by
  unfold build at built
  split at built
  case h_8 token operand =>
    cases built
    rcases others with _ | ⟨operand, _ | ⟨second, rest⟩⟩
    case cons.nil =>
      simp only [applyTrailing, withChildren, build, Span.extend_comm operand.span, Except.ok.injEq,
        Option.some.injEq]
    all_goals constructor <;> intro same <;> cases same
  case h_9 => cases plain
  case h_11 token left right =>
    unfold joinUnits at built
    split at built <;> cases built
    next operator spelled =>
      rcases others with _ | ⟨left, _ | ⟨right, _ | ⟨third, rest⟩⟩⟩
      case cons.cons.nil =>
        simp only [withChildren, build, joinUnits, spelled, Except.toOption, Except.ok.injEq,
          Option.some.injEq]
      all_goals constructor <;> intro same <;> cases same
  case h_14 => cases built
  all_goals
    cases built
    rcases others with _ | ⟨first, _ | ⟨second, _ | ⟨third, rest⟩⟩⟩
    all_goals constructor <;> intro same <;> cases same <;> rfl

/-- Only parentheses enclose. -/
theorem build_of_encloses (encloses : form.encloses = true) (built : form.build children = some n) :
    ∃ opening inner closing, form = .parenthesis opening closing ∧ children = [inner]
      ∧ n = enclose opening inner closing := by
  unfold build at built
  split at built
  case h_9 opening closing inner =>
    cases built
    exact ⟨opening, inner, closing, rfl, rfl, rfl⟩
  case h_14 => cases built
  all_goals cases encloses

/-- What was built comes back if it is rebuilt with the children that it has. -/
theorem withChildren_build (built : form.build children = some n) :
    n.withChildren n.children = .ok n := by
  rw [children_build built]
  cases shape : form.encloses with
  | false => exact (withChildren_eq_ok_iff shape built).mpr built
  | true =>
      obtain ⟨opening, inner, closing, rfl, rfl, rfl⟩ := build_of_encloses shape built
      simp only [enclose, withChildren, Span.extend_extend_self]

end Form

/-! ### Trees as they are built -/

/-- A tree in which every node comes back unchanged if it is rebuilt with the children that it
has. -/
inductive Stable : Node → Prop where
  | node {n : Node} (restored : n.withChildren n.children = .ok n)
      (inner : ∀ c ∈ n.children, c.Stable) : n.Stable

namespace Stable

variable {n m : Node} {children : List Node}

theorem restored (h : n.Stable) : n.withChildren n.children = .ok n := by
  cases h with
  | node restored inner => exact restored

theorem build (form : Form) (children : List Node) {n : Node} (parts : ∀ c ∈ children, c.Stable)
    (built : form.build children = some n) : n.Stable :=
  .node (Form.withChildren_build built) (Form.children_build built ▸ parts)

/-- A node that was rebuilt comes back with the children that it was given. -/
theorem withChildren (new : ∀ c ∈ children, c.Stable) (rebuilt : n.withChildren children = .ok m) :
    m.Stable := by
  have given := children_withChildren rebuilt
  exact .node (given ▸ withChildren_twice rebuilt) (given ▸ new)

end Stable

theorem Built.stable {n : Node} (built : n.Built) : n.Stable :=
  built.of_kept Stable.build fun _ => Stable.withChildren

/-! ### Whole trees -/

/-- A tree rebuilt from the leaves on: every node with its rebuilt children. -/
def rebuild : Node → Except NodeError Node
  | number literal span => (number literal span).withChildren []
  | measured literal literalSpan unit span => do
      (measured literal literalSpan unit span).withChildren [← unit.rebuild]
  | identifier name span => (identifier name span).withChildren []
  | unitName name span => (unitName name span).withChildren []
  | unparsed text span => (unparsed text span).withChildren []
  | binary symbol token left right span => do
      (binary symbol token left right span).withChildren [← left.rebuild, ← right.rebuild]
  | unary symbol fixity token operand span => do
      (unary symbol fixity token operand span).withChildren [← operand.rebuild]
  | parenthesis inner span => do (parenthesis inner span).withChildren [← inner.rebuild]
  | unitPower unit token exponent exponentSpan span => do
      (unitPower unit token exponent exponentSpan span).withChildren [← unit.rebuild]
  | unitProduct operator token left right span => do
      (unitProduct operator token left right span).withChildren [← left.rebuild, ← right.rebuild]
  | definition name nameSpan constant value span => do
      (definition name nameSpan constant value span).withChildren [← value.rebuild]
  | statement inner span => do (statement inner span).withChildren [← inner.rebuild]

theorem rebuild_eq (n : Node) : n.rebuild = n.children.mapM rebuild >>= n.withChildren := by
  cases n <;> simp [rebuild, children]

/-- Trees that come back unchanged do so one by one. -/
theorem mapM_rebuild {nodes : List Node} (same : ∀ c ∈ nodes, c.rebuild = .ok c) :
    nodes.mapM rebuild = .ok nodes := by
  induction nodes with
  | nil => rfl
  | cons c rest ih =>
      obtain ⟨first, others⟩ := List.forall_mem_cons.mp same
      rw [List.mapM_cons, first, ih others]
      rfl

/-- A stable tree is the same again once all of it has been rebuilt. -/
theorem Stable.rebuild_eq {n : Node} (stable : n.Stable) : n.rebuild = .ok n := by
  induction stable with
  | node restored _ ih =>
      rw [Node.rebuild_eq, mapM_rebuild ih]
      exact restored

/-- Nodes can be taken apart and put together again.  A tree that was built is the same again, with
all spans, if it is given the children that it has, or if all of it is rebuilt from the leaves on.
Children that are not as many as before are refused, with both numbers; any others become the
children of a node that is of the same kind and says the same by itself. -/
theorem rebuilding_is_faithful {n : Node} (built : n.Built) :
    n.withChildren n.children = .ok n
      ∧ (∀ children : List Node, children.length ≠ n.children.length →
        n.withChildren children
          = .error (.childCount n.kind n.children.length children.length))
      ∧ (∀ children : List Node, children.length = n.children.length →
        ∃ m, n.withChildren children = .ok m ∧ m.kind = n.kind ∧ m.children = children
          ∧ m.label = n.label)
      ∧ n.rebuild = .ok n := by
  have stable := built.stable
  refine ⟨stable.restored, fun children => withChildren_error, fun children length => ?_,
    stable.rebuild_eq⟩
  obtain ⟨m, rebuilt⟩ := exists_withChildren length
  refine ⟨m, rebuilt, kind_withChildren rebuilt, children_withChildren rebuilt, ?_⟩
  -- The own symbol of a binary operator is the one that would be computed anew.
  have spelled : n.label = n.label.respelled := label_withChildren stable.restored
  rw [label_withChildren rebuilt, ← spelled]

/-- Parentheses that were built around `5`, further on, and that have been given `3!` instead. -/
def strayParentheses : Node := parenthesis (applyTrailing (ofNumber "3" 0) (.ofText "!" 1)) ⟨0, 7⟩

theorem strayParentheses_built : strayParentheses.Built := by
  have three : (ofNumber "3" 0).Built := .build (.number "3" 0) [] nofun rfl
  have five : (ofNumber "5" 5).Built := .build (.number "5" 5) [] nofun rfl
  have factorial : (applyTrailing (ofNumber "3" 0) (.ofText "!" 1)).Built :=
    .foldTrailing three [.ofText "!" 1]
  have around : (enclose 4 (ofNumber "5" 5) 6).Built :=
    .build (.parenthesis 4 6) [ofNumber "5" 5] (by simpa using five) rfl
  exact .withChildren around (List.forall_mem_singleton.mpr factorial) rfl

/-- Although their span tells of the number that they stood around, they come back as they are. -/
theorem strayParentheses_rebuilt :
    strayParentheses.Built ∧ strayParentheses.rebuild = .ok strayParentheses
      ∧ strayParentheses.withChildren strayParentheses.children = .ok strayParentheses
      ∧ strayParentheses.withChildren [] = .error (.childCount .parenthesis 1 0)
      ∧ ∃ m, strayParentheses.withChildren [ofText "?" 20] = .ok m ∧ m.children = [ofText "?" 20]
        ∧ m.label = .parenthesis := by
  obtain ⟨same, refused, given, whole⟩ := rebuilding_is_faithful strayParentheses_built
  obtain ⟨m, rebuilt, -, children, label⟩ := given [ofText "?" 20] rfl
  exact ⟨strayParentheses_built, whole, same, refused [] (by decide), m, rebuilt, children, label⟩

/-! ### Rebuilding again -/

/-- A node that is given one list of children after another is what its form builds of the last of
them, and so is a node that is given these at once.  Only parentheses are different, since they
never shrink: they forget what they had around them exactly if it lies where they are now. -/
theorem rebuilding_forgets_iff {form : Form} {children others last : List Node} {n : Node}
    (built : form.build children = some n) (as_many : others.length = n.children.length)
    (last_as_many : last.length = n.children.length) :
    ∃ fresh direct again, form.build last = some fresh ∧ n.withChildren last = .ok direct
      ∧ (n.withChildren others).bind (·.withChildren last) = .ok again
      ∧ (fresh.children = last ∧ direct.children = last ∧ again.children = last)
      ∧ (direct.label = fresh.label ∧ again.label = fresh.label)
      ∧ (again = direct ∧ direct = fresh
        ↔ (form.encloses = true → ∀ old ∈ children ++ others, fresh.span.Covers old.span)) := by
  obtain ⟨middle, rebuilt⟩ := exists_withChildren as_many
  have length : last.length = middle.children.length := by
    rw [children_withChildren rebuilt, as_many, last_as_many]
  obtain ⟨direct, given⟩ := exists_withChildren last_as_many
  obtain ⟨again, given_again⟩ := exists_withChildren length
  have chained : (n.withChildren others).bind (·.withChildren last) = .ok again := by
    rw [rebuilt]
    exact given_again
  cases shape : form.encloses with
  | false =>
      have fresh := (Form.withChildren_eq_ok_iff shape built).mp given
      have middle_built := (Form.withChildren_eq_ok_iff shape built).mp rebuilt
      have fresh_again := (Form.withChildren_eq_ok_iff shape middle_built).mp given_again
      obtain rfl : again = direct := Option.some.inj (fresh_again.symm.trans fresh)
      have new := children_withChildren given
      exact ⟨again, again, again, fresh, given, chained, ⟨new, new, new⟩, ⟨rfl, rfl⟩, by simp⟩
  | true =>
      obtain ⟨opening, inner, closing, rfl, rfl, rfl⟩ := Form.build_of_encloses shape built
      obtain ⟨other, rfl⟩ := List.length_eq_one_iff.mp as_many
      obtain ⟨new, rfl⟩ := List.length_eq_one_iff.mp last_as_many
      cases rebuilt
      cases given
      cases given_again
      refine ⟨enclose opening new closing, _, _, rfl, rfl, chained, ⟨rfl, rfl, rfl⟩, ⟨rfl, rfl⟩, ?_⟩
      simp only [enclose, parenthesis.injEq, true_and, Span.extend_extend_extend_eq_iff]
      simp [span]

/-- In `(1)`, one digit takes the place of another and leaves no trace. -/
theorem digits_forgotten :
    Form.build (.parenthesis 0 2) [ofNumber "1" 1] = some (enclose 0 (ofNumber "1" 1) 2)
      ∧ ((enclose 0 (ofNumber "1" 1) 2).withChildren [ofNumber "2" 1]).bind
          (·.withChildren [ofNumber "3" 1])
        = (enclose 0 (ofNumber "1" 1) 2).withChildren [ofNumber "3" 1]
      ∧ (enclose 0 (ofNumber "1" 1) 2).withChildren [ofNumber "3" 1]
        = .ok (enclose 0 (ofNumber "3" 1) 2) := by
  have built :
      Form.build (.parenthesis 0 2) [ofNumber "1" 1] = some (enclose 0 (ofNumber "1" 1) 2) := rfl
  obtain ⟨fresh, direct, again, of_form, given, chained, -, -, same_iff⟩ :=
    @rebuilding_forgets_iff _ _ [ofNumber "2" 1] [ofNumber "3" 1] _ built rfl rfl
  cases of_form
  have covers : ∀ old ∈ [ofNumber "1" 1] ++ [ofNumber "2" 1],
      (enclose 0 (ofNumber "3" 1) 2).span.Covers old.span := by
    decide
  obtain ⟨rfl, rfl⟩ := same_iff.mpr fun _ => covers
  exact ⟨built, chained.trans given.symm, given⟩

/-- But a digit further on leaves its place behind in the span of the parentheses, whether they were
given it or built around it. -/
theorem distant_digit_remembered :
    ((enclose 0 (ofNumber "1" 1) 2).withChildren [ofNumber "2" 8]).bind
          (·.withChildren [ofNumber "3" 1])
        ≠ (enclose 0 (ofNumber "1" 1) 2).withChildren [ofNumber "3" 1]
      ∧ (enclose 0 (ofNumber "2" 8) 2).withChildren [ofNumber "3" 1]
        ≠ .ok (enclose 0 (ofNumber "3" 1) 2) := by
  constructor
  · intro same
    have wider : parenthesis (ofNumber "3" 1) ⟨0, 9⟩ = parenthesis (ofNumber "3" 1) ⟨0, 3⟩ :=
      Except.ok.inj same
    exact absurd wider (by decide)
  · intro same
    have wider : parenthesis (ofNumber "3" 1) ⟨0, 9⟩ = enclose 0 (ofNumber "3" 1) 2 :=
      Except.ok.inj same
    exact absurd wider (by decide)

end Node

end QuantityCalculus
