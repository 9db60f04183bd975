/-
Module: QuantityCalculus.Proofs.Expression.UnitText
Layer: Proofs
Purpose: What the text of a unit expression tells of it.  No parentheses are written between units,
  so the text tells which names, exponents and operators there are, in which order, and nothing of
  how they are grouped.  Read as it would be read aloud, from the left on, it stands for exactly one
  expression.
Imports: QuantityCalculus.Expression.Text, QuantityCalculus.Proofs.Evaluation.UnitRun,
  QuantityCalculus.Proofs.Evaluation.Layout
Trusted boundary: none
Main exports: Node.Unbroken, Node.UnitExpression, Node.GroupsLeft,
  UnitExpression.content_eq_of_text, Node.regrouped, Node.regrouped_spec, unit_texts_equal_iff
Open obligations: none
-/
import QuantityCalculus.Expression.Text
import QuantityCalculus.Proofs.Evaluation.UnitRun
import QuantityCalculus.Proofs.Evaluation.Layout

namespace QuantityCalculus

/-- Two lists that are the same are split by their last elements of some kind into the same
parts. -/
theorem append_cons_inj_of_last {τ : Type} {P : τ → Prop} {as bs us vs : List τ} {s t : τ}
    (left : P s) (right : P t) (lastLeft : ∀ c ∈ us, ¬P c) (lastRight : ∀ c ∈ vs, ¬P c)
    (same : as ++ s :: us = bs ++ t :: vs) : as = bs ∧ s = t ∧ us = vs := by
  rcases List.append_eq_append_iff.mp same with ⟨between, rfl, rest⟩ | ⟨between, rfl, rest⟩
  · cases between with
    | nil =>
        obtain ⟨rfl, rfl⟩ := List.cons.inj rest
        exact ⟨(List.append_nil _).symm, rfl, rfl⟩
    | cons c between =>
        obtain ⟨-, rfl⟩ := List.cons.inj rest
        exact absurd right (lastLeft t (by simp))
  · cases between with
    | nil =>
        obtain ⟨rfl, rfl⟩ := List.cons.inj rest
        exact ⟨List.append_nil _, rfl, rfl⟩
    | cons c between =>
        obtain ⟨-, rfl⟩ := List.cons.inj rest
        exact absurd left (lastRight s (by simp))

/-- The character between two units that are joined. -/
def UnitOperator.joint : UnitOperator → Char
  | multiply => '·'
  | divide => '/'

theorem UnitOperator.joint_eq (op : UnitOperator) : op.joint = '·' ∨ op.joint = '/' := by
  cases op
  · exact .inl rfl
  · exact .inr rfl

theorem UnitOperator.joint_injective : ∀ {op op' : UnitOperator}, op.joint = op'.joint → op = op'
  | multiply, multiply, _ | divide, divide, _ => rfl

namespace Node

/-! ### Unit expressions -/

/-- A text without the characters that stand between the parts of a unit, like a name of letters or
a decimal integer. -/
def Unbroken (text : String) : Prop := ∀ c ∈ text.toList, c ≠ '·' ∧ c ≠ '/' ∧ c ≠ '^'

instance (text : String) : Decidable (Unbroken text) := inferInstanceAs (Decidable (∀ c ∈ _, _))

/-- An expression that consists of the names of units, of their products and quotients, and of
powers. -/
inductive UnitExpression : Node → Prop where
  | name {name : String} (unbroken : Unbroken name) (span : Span) :
      (unitName name span).UnitExpression
  | power {unit : Node} (base : unit.UnitExpression) (token : Token) {exponent : String}
      (unbroken : Unbroken exponent) (exponentSpan span : Span) :
      (unitPower unit token exponent exponentSpan span).UnitExpression
  | product (operator : UnitOperator) (token : Token) {left right : Node}
    (first : left.UnitExpression)
      (second : right.UnitExpression) (span : Span) :
      (unitProduct operator token left right span).UnitExpression

/-- Whether a node joins two units. -/
def joins : Node → Bool
  | unitProduct .. => true
  | _ => false

/-- Nothing is joined within the base of a power or behind an operator, where only parentheses would
show it. -/
def GroupsLeft : Node → Prop
  | unitPower unit _ _ _ _ => unit.joins = false ∧ unit.GroupsLeft
  | unitProduct _ _ left right _ => left.GroupsLeft ∧ right.joins = false ∧ right.GroupsLeft
  | _ => True

theorem toList_text_unitPower (unit : Node) (token : Token) (exponent : String)
    (exponentSpan span : Span) :
    (unitPower unit token exponent exponentSpan span).text.toList
      = unit.text.toList ++ '^' :: exponent.toList := by
  simp [text]

theorem toList_text_unitProduct (operator : UnitOperator) (token : Token) (left right : Node)
    (span : Span) :
    (unitProduct operator token left right span).text.toList
      = left.text.toList ++ operator.joint :: right.text.toList := by
  cases operator <;> simp [text, UnitOperator.joint]

variable {n a b : Node}

/-- No joint is written in a unit that is none itself. -/
theorem UnitExpression.unjoined (h : n.UnitExpression) (groups : n.GroupsLeft)
    (single : n.joins = false) :
    ∀ c ∈ n.text.toList, ¬(c = '·' ∨ c = '/') := by
  induction h with
  | name unbroken span =>
      intro c member
      obtain ⟨dot, slash, -⟩ := unbroken c member
      exact not_or.mpr ⟨dot, slash⟩
  | power base token unbroken exponentSpan span ih =>
      intro c member
      rw [toList_text_unitPower, List.mem_append, List.mem_cons] at member
      rcases member with inner | rfl | outer
      · exact ih groups.2 groups.1 c inner
      · decide
      · obtain ⟨dot, slash, -⟩ := unbroken c outer
        exact not_or.mpr ⟨dot, slash⟩
  | product => cases single

/-- That two units are joined shows in the text. -/
theorem UnitExpression.joins_iff (h : n.UnitExpression) (groups : n.GroupsLeft) :
    n.joins = true ↔ ∃ c ∈ n.text.toList, c = '·' ∨ c = '/' := by
  constructor
  · intro joins
    cases h with
    | name | power => cases joins
    | product operator token first second span =>
        rw [toList_text_unitProduct]
        exact ⟨operator.joint, by simp, operator.joint_eq⟩
  · rintro ⟨c, member, joint⟩
    cases single : n.joins with
    | true => rfl
    | false => exact absurd joint (h.unjoined groups single c member)

theorem UnitExpression.joins_eq_of_text (ha : a.UnitExpression) (hb : b.UnitExpression)
    (groupsA : a.GroupsLeft) (groupsB : b.GroupsLeft) (same : a.text.toList = b.text.toList) :
    a.joins = b.joins := by
  rw [Bool.eq_iff_iff, ha.joins_iff groupsA, hb.joins_iff groupsB, same]

/-- Expressions that group to the left are the same, but for their layout, if they have the same
text. -/
theorem UnitExpression.content_eq_of_text (ha : a.UnitExpression) (hb : b.UnitExpression)
    (groupsA : a.GroupsLeft) (groupsB : b.GroupsLeft) (same : a.text.toList = b.text.toList) :
    a.content = b.content := by
  -- The last joint of the text, or the last power sign if there is no joint, belongs to the root.
  induction ha generalizing b with
  | name unbroken span =>
      have joins := (UnitExpression.name unbroken span).joins_eq_of_text hb groupsA groupsB same
      cases hb with
      | name => exact congrArg (unitName · .nowhere) (String.toList_inj.mp same)
      | power =>
          rw [toList_text_unitPower] at same
          exact absurd rfl (unbroken '^' (same ▸ by simp)).2.2
      | product => cases joins
  | power base token unbroken exponentSpan span ih =>
      have joins :=
        (base.power token unbroken exponentSpan span).joins_eq_of_text hb groupsA groupsB same
      rw [toList_text_unitPower] at same
      cases hb with
      | name plain => exact absurd rfl (plain '^' (same ▸ by simp)).2.2
      | power base' token' unbroken' =>
          rw [toList_text_unitPower] at same
          obtain ⟨below, -, exponents⟩ := append_cons_inj_of_last (P := (· = '^')) rfl rfl
            (fun c member => (unbroken c member).2.2) (fun c member => (unbroken' c member).2.2)
              same
          rw [content, content, ih base' groupsA.2 groupsB.2 below, String.toList_inj.mp exponents]
      | product => cases joins
  | product operator token first second span ihFirst ihSecond =>
      have joins :=
        (first.product operator token second span).joins_eq_of_text hb groupsA groupsB same
      cases hb with
      | name | power => cases joins
      | product operator' token' first' second' span' =>
          rw [toList_text_unitProduct, toList_text_unitProduct] at same
          obtain ⟨leftA, singleA, rightA⟩ := groupsA
          obtain ⟨leftB, singleB, rightB⟩ := groupsB
          obtain ⟨before, joint, behind⟩ := append_cons_inj_of_last
            (P := fun c => c = '·' ∨ c = '/') operator.joint_eq operator'.joint_eq
            (second.unjoined rightA singleA) (second'.unjoined rightB singleB) same
          rw [content, content, ihFirst first' leftA leftB before,
            ihSecond second' rightA rightB behind,
            UnitOperator.joint_injective joint]

/-! ### Grouping to the left -/

/-- A power of the last unit of an expression that groups to the left. -/
def raiseLast (token : Token) (exponent : String) (exponentSpan span : Span) : Node → Node
  | unitProduct operator joint left right outer =>
      unitProduct operator joint left (unitPower right token exponent exponentSpan span) outer
  | unit => unitPower unit token exponent exponentSpan span

/-- Two expressions that group to the left, joined to one that does so too. -/
def joinAll (operator : UnitOperator) (token : Token) (span : Span) (left : Node) : Node → Node
  | unitProduct operator' token' first last span' =>
      unitProduct operator' token' (joinAll operator token span left first) last span'
  | unit => unitProduct operator token left unit span

/-- A unit expression with the same names, exponents and operators in the same order, grouped to the
left. -/
def regrouped : Node → Node
  | unitPower unit token exponent exponentSpan span =>
      unit.regrouped.raiseLast token exponent exponentSpan span
  | unitProduct operator token left right span =>
      joinAll operator token span left.regrouped right.regrouped
  | n => n

/-- An exponent is written at the end, wherever the tree has its last name. -/
theorem raiseLast_spec (h : n.UnitExpression) (groups : n.GroupsLeft) (token : Token)
    {exponent : String}
    (unbroken : Unbroken exponent) (exponentSpan span : Span) :
    (n.raiseLast token exponent exponentSpan span).UnitExpression
      ∧ (n.raiseLast token exponent exponentSpan span).GroupsLeft
      ∧ (n.raiseLast token exponent exponentSpan span).text.toList
        = n.text.toList ++ '^' :: exponent.toList := by
  cases h with
  | name plain place =>
      exact ⟨.power (.name plain place) token unbroken exponentSpan span, ⟨rfl, groups⟩,
        toList_text_unitPower ..⟩
  | power base other plain place outer =>
      exact ⟨.power (.power base other plain place outer) token unbroken exponentSpan span,
        ⟨rfl, groups⟩,
        toList_text_unitPower ..⟩
  | product operator joint first second outer =>
      refine ⟨.product operator joint first (.power second token unbroken exponentSpan span) outer,
        ⟨groups.1, rfl, groups.2.1, groups.2.2⟩, ?_⟩
      rw [raiseLast, toList_text_unitProduct, toList_text_unitPower, toList_text_unitProduct,
        List.append_assoc, List.cons_append]

/-- An operator is written between two texts, and the trees are grouped anew. -/
theorem joinAll_spec (operator : UnitOperator) (token : Token) (span : Span) (ha : a.UnitExpression)
    (hb : b.UnitExpression) (groupsA : a.GroupsLeft) (groupsB : b.GroupsLeft) :
    (joinAll operator token span a b).UnitExpression ∧ (joinAll operator token span a b).GroupsLeft
      ∧ (joinAll operator token span a b).text.toList
        = a.text.toList ++ operator.joint :: b.text.toList := by
  induction hb with
  | name plain place =>
      exact ⟨.product operator token ha (.name plain place) span, ⟨groupsA, rfl, groupsB⟩,
        toList_text_unitProduct ..⟩
  | power base other plain place outer =>
      exact ⟨.product operator token ha (.power base other plain place outer) span,
        ⟨groupsA, rfl, groupsB⟩,
        toList_text_unitProduct ..⟩
  | product operator' token' first second span' ih =>
      obtain ⟨expression, groups, text⟩ := ih groupsB.1
      refine ⟨.product operator' token' expression second span', ⟨groups, groupsB.2⟩, ?_⟩
      rw [joinAll, toList_text_unitProduct, text, toList_text_unitProduct, List.append_assoc,
        List.cons_append]

/-- Regrouping moves no name, no exponent and no operator. -/
theorem regrouped_spec (h : n.UnitExpression) :
    n.regrouped.UnitExpression ∧ n.regrouped.GroupsLeft
      ∧ n.regrouped.text.toList = n.text.toList := by
  induction h with
  | name unbroken span => exact ⟨.name unbroken span, trivial, rfl⟩
  | power base token unbroken exponentSpan span ih =>
      obtain ⟨expression, groups, text⟩ := ih
      obtain ⟨raised, raisedGroups, raisedText⟩ :=
        raiseLast_spec expression groups token unbroken exponentSpan span
      exact ⟨raised, raisedGroups, by rw [regrouped, raisedText, text, toList_text_unitPower]⟩
  | product operator token first second span ihFirst ihSecond =>
      obtain ⟨left, leftGroups, leftText⟩ := ihFirst
      obtain ⟨right, rightGroups, rightText⟩ := ihSecond
      obtain ⟨joined, joinedGroups, joinedText⟩ :=
        joinAll_spec operator token span left right leftGroups rightGroups
      exact ⟨joined, joinedGroups,
        by rw [regrouped, joinedText, leftText, rightText, toList_text_unitProduct]⟩

/-- What groups to the left already stays as it is. -/
theorem regrouped_eq_self (h : n.UnitExpression) (groups : n.GroupsLeft) : n.regrouped = n := by
  induction h with
  | name => rfl
  | @power unit base token exponent unbroken exponentSpan span ih =>
      obtain ⟨single, inner⟩ := groups
      rw [regrouped, ih inner]
      cases base with
      | name | power => rfl
      | product => cases single
  | @product operator token left right first second span ihFirst ihSecond =>
      obtain ⟨leftGroups, single, rightGroups⟩ := groups
      rw [regrouped, ihFirst leftGroups, ihSecond rightGroups]
      cases second with
      | name | power => rfl
      | product => cases single

theorem text_content (h : n.UnitExpression) : n.content.text = n.text := by
  induction h with
  | name => rfl
  | power base token unbroken exponentSpan span ih => rw [content, text, text, ih]
  | product operator token first second span ihFirst ihSecond =>
      cases operator <;> rw [content, text, text, ihFirst, ihSecond]

end Node

section Values

variable {α : Type} [Scalar α] [Elementary α]

/-- Two unit expressions have the same text exactly if they are the same, but for their layout, once
both are grouped to the left.  So where both group to the left themselves, the same text means the
same value in every scope. -/
theorem unit_texts_equal_iff {a b : Node} (ha : a.UnitExpression) (hb : b.UnitExpression) :
    (a.text = b.text ↔ a.regrouped.content = b.regrouped.content)
      ∧ (a.GroupsLeft → b.GroupsLeft → a.text = b.text →
        ∀ (preferences : Preferences) (s : Scope α),
          (evaluate preferences a s).value = (evaluate preferences b s).value) := by
  obtain ⟨expressionA, groupsA, textA⟩ := Node.regrouped_spec ha
  obtain ⟨expressionB, groupsB, textB⟩ := Node.regrouped_spec hb
  have texts : a.text = b.text ↔ a.regrouped.content = b.regrouped.content := by
    rw [← String.toList_inj, ← textA, ← textB]
    constructor
    · exact expressionA.content_eq_of_text expressionB groupsA groupsB
    · intro same
      rw [← Node.text_content expressionA, same, Node.text_content expressionB]
  refine ⟨texts, fun leftA leftB same preferences s => ?_⟩
  have contents : a.content = b.content := by
    rw [← Node.regrouped_eq_self ha leftA, ← Node.regrouped_eq_self hb leftB]
    exact texts.mp same
  have outcomes : (evaluate preferences a s).unplaced = (evaluate preferences b s).unplaced := by
    rw [← evaluate_content, contents, evaluate_content]
  exact (Outcome.mk.inj outcomes).1

end Values

/-! ### Metres and seconds -/

section Metres

theorem unbroken_metre : Node.Unbroken "m" := by simp [Node.Unbroken]

theorem unbroken_second : Node.Unbroken "s" := by simp [Node.Unbroken]

theorem unbroken_two : Node.Unbroken "2" := by simp [Node.Unbroken]

/-- The quotient `m/s^2`. -/
def acceleration : Node :=
  .unitProduct .divide ⟨"/", ⟨1, 2⟩⟩ (.unitName "m" ⟨0, 1⟩)
    (.unitPower (.unitName "s" ⟨2, 3⟩) ⟨"^", ⟨3, 4⟩⟩ "2" ⟨4, 5⟩ ⟨2, 5⟩) ⟨0, 5⟩

/-- The same quotient, written as `m per s ^ 2`. -/
def wordyAcceleration : Node :=
  .unitProduct .divide ⟨"per", ⟨2, 5⟩⟩ (.unitName "m" ⟨0, 1⟩)
    (.unitPower (.unitName "s" ⟨6, 7⟩) ⟨"^", ⟨8, 9⟩⟩ "2" ⟨10, 11⟩ ⟨6, 11⟩) ⟨0, 11⟩

/-- Accelerations have one value, whichever way their quotient is written. -/
theorem accelerations_read_alike :
    acceleration.UnitExpression ∧ wordyAcceleration.UnitExpression
      ∧ acceleration.GroupsLeft ∧ wordyAcceleration.GroupsLeft
      ∧ acceleration.text = wordyAcceleration.text
      ∧ acceleration.regrouped.content = wordyAcceleration.regrouped.content
      ∧ (evaluate Preferences.standard acceleration motionScope).value
        = (evaluate Preferences.standard wordyAcceleration motionScope).value := by
  have expression : acceleration.UnitExpression :=
    .product .divide _ (.name unbroken_metre _)
      (.power (.name unbroken_second _) _ unbroken_two _ _) _
  have wordyExpression : wordyAcceleration.UnitExpression :=
    .product .divide _ (.name unbroken_metre _)
      (.power (.name unbroken_second _) _ unbroken_two _ _) _
  have groups : acceleration.GroupsLeft := ⟨trivial, rfl, rfl, trivial⟩
  have wordyGroups : wordyAcceleration.GroupsLeft := ⟨trivial, rfl, rfl, trivial⟩
  have text : acceleration.text = wordyAcceleration.text := rfl
  obtain ⟨texts, values⟩ := @unit_texts_equal_iff Float _ _ _ _ expression wordyExpression
  exact ⟨expression, wordyExpression, groups, wordyGroups, text, texts.mp text,
    values groups wordyGroups text Preferences.standard motionScope⟩

/-- The quotient `m/(s·s)`, of a length and a product. -/
def nestedQuotient : Node :=
  .unitProduct .divide ⟨"/", ⟨1, 2⟩⟩ (.unitName "m" ⟨0, 1⟩)
    (.unitProduct .multiply ⟨"*", ⟨4, 5⟩⟩ (.unitName "s" ⟨3, 4⟩) (.unitName "s" ⟨5, 6⟩) ⟨3, 6⟩)
    ⟨0, 6⟩

/-- The product `(m/s)·s`, of a quotient and a time. -/
def nestedProduct : Node :=
  .unitProduct .multiply ⟨"*", ⟨5, 6⟩⟩
    (.unitProduct .divide ⟨"/", ⟨2, 3⟩⟩ (.unitName "m" ⟨1, 2⟩) (.unitName "s" ⟨3, 4⟩) ⟨1, 4⟩)
    (.unitName "s" ⟨6, 7⟩) ⟨1, 7⟩

/-- The second stays with the exponent -2 in one of two expressions that read `m/s·s`, and cancels
in the other. -/
theorem grouping_is_not_written :
    nestedQuotient.UnitExpression ∧ nestedProduct.UnitExpression
      ∧ nestedQuotient.text = "m/s·s" ∧ nestedProduct.text = "m/s·s"
      ∧ ∃ x y, evaluate Preferences.standard nestedQuotient motionScope = .success x motionScope
        ∧ evaluate Preferences.standard nestedProduct motionScope = .success y motionScope
        ∧ (x.unit.exponentOf "s").val = -2 ∧ (y.unit.exponentOf "s").val = 0 := by
  have quotient : nestedQuotient.UnitExpression :=
    .product .divide _ (.name unbroken_metre _)
      (.product .multiply _ (.name unbroken_second _) (.name unbroken_second _) _) _
  have product : nestedProduct.UnitExpression :=
    .product .multiply _ (.product .divide _ (.name unbroken_metre _) (.name unbroken_second _) _)
      (.name unbroken_second _) _
  have reachable : motionScope.Reachable := Scope.Reachable.standard.performAll _
  have metre (span : Span) : (Node.unitName "m" span).YieldsUnit Preferences.standard motionScope
      fun name => if "m" = name then 1 else 0 :=
    Node.yieldsUnit_unitName reachable ⟨_, rfl⟩ span
  have second (span : Span) : (Node.unitName "s" span).YieldsUnit Preferences.standard motionScope
      fun name => if "s" = name then 1 else 0 :=
    Node.yieldsUnit_unitName reachable ⟨_, rfl⟩ span
  obtain ⟨x, evaluatedX, -, -, exponentsX⟩ :=
    (metre ⟨0, 1⟩).join
      ((second ⟨3, 4⟩).join (second ⟨5, 6⟩) .multiply ⟨"*", ⟨4, 5⟩⟩ ⟨3, 6⟩
        (fun name => by split <;> decide) (fun name => by split <;> decide))
      .divide ⟨"/", ⟨1, 2⟩⟩ ⟨0, 6⟩
      (fun name => by split <;> split <;> decide) (fun name => by split <;> decide)
  obtain ⟨y, evaluatedY, -, -, exponentsY⟩ :=
    ((metre ⟨1, 2⟩).join (second ⟨3, 4⟩) .divide ⟨"/", ⟨2, 3⟩⟩ ⟨1, 4⟩
        (fun name => by split <;> split <;> decide) (fun name => by split <;> decide)).join
      (second ⟨6, 7⟩) .multiply ⟨"*", ⟨5, 6⟩⟩ ⟨1, 7⟩
      (fun name => by split <;> split <;> decide) (fun name => by split <;> decide)
  refine ⟨quotient, product, rfl, rfl, x, y, evaluatedX, evaluatedY, ?_, ?_⟩
  · rw [exponentsX]
    decide
  · rw [exponentsY]
    decide

end Metres

end QuantityCalculus
