/-
Module: QuantityCalculus.Proofs.Evaluation.Cascade
Layer: Proofs
Purpose: Errors do not cascade.  What is reported of a tree is what its nodes report by themselves,
  in the order of the walk, and a node that reports something stands neither above nor below another
  one that does.
Imports: QuantityCalculus.Proofs.Expression.Position, QuantityCalculus.Proofs.Evaluation.Handling
Trusted boundary: none
Main exports: ownReports, reportsAt, reportsAt_subset, reports_eq_flatMap, reportsAt_above,
  errors_do_not_cascade
Open obligations: none
-/
import QuantityCalculus.Proofs.Expression.Position
import QuantityCalculus.Proofs.Evaluation.Handling

namespace QuantityCalculus

variable {α : Type}

section Definitions

variable [Scalar α] [Elementary α]

/-- What a node reports by itself.  It is not handled unless all of its children have values. -/
def ownReports (preferences : Preferences) (n : Node) (s : Scope α) : List (Diagnostic α) :=
  let children := evaluateAll preferences (n.visited α) s
  match children.values with
  | some values => (n.handle preferences children.scope values).reports
  | none => []

/-- What the node at a position reports by itself when the whole tree is evaluated.  A child is
evaluated in the scope that the children to its left leave behind. -/
def reportsAt (preferences : Preferences) (n : Node) (s : Scope α) : Position → List (Diagnostic α)
  | [] => ownReports preferences n s
  | i :: p =>
      match (n.visited α)[i]? with
      | some child =>
          reportsAt preferences child (evaluateAll preferences ((n.visited α).take i) s).scope p
      | none => []

end Definitions

variable [Scalar α] [Elementary α] (preferences : Preferences)

theorem evaluate_reports (n : Node) (s : Scope α) :
    (evaluate preferences n s).reports
      = (evaluateAll preferences (n.visited α) s).reports ++ ownReports preferences n s := by
  rw [evaluate_eq, Outcomes.finish, ownReports]
  cases (evaluateAll preferences (n.visited α) s).values <;> simp

/-! ### How a single node reports -/

/-- Reports of a node by itself come from its handling. -/
theorem ownReports_cases (n : Node) (s : Scope α) :
    let children := evaluateAll preferences (n.visited α) s
    ownReports preferences n s = [] ∨ ∃ values, children.values = some values
      ∧ ownReports preferences n s = (n.handle preferences children.scope values).reports := by
  intro children
  rw [ownReports]
  cases (evaluateAll preferences (n.visited α) s).values with
  | none => exact .inl rfl
  | some values => exact .inr ⟨values, rfl, rfl⟩

theorem ownReports_of_visited_nil {n : Node} (leaf : n.visited α = []) (s : Scope α) :
    ownReports preferences n s = (n.handle preferences s []).reports := by
  rw [ownReports, leaf]
  rfl

/-- A node with a value has children with values, and reports nothing of its own. -/
theorem ownReports_silent {n : Node} {s : Scope α}
    (valued : (evaluate preferences n s).value.isSome = true) :
    (evaluateAll preferences (n.visited α) s).values.isSome = true
      ∧ ownReports preferences n s = [] := by
  rw [evaluate_eq, Outcomes.finish] at valued
  rw [ownReports]
  cases values : (evaluateAll preferences (n.visited α) s).values with
  | none => simp [values] at valued
  | some xs =>
      simp only [values] at valued ⊢
      exact ⟨rfl, (handle_single preferences _ n xs).silent valued⟩

/-! ### Where there is a value, nothing is reported -/

/-- Nodes that all have values report nothing, if each of them is silent when it has one. -/
theorem evaluateAll_silent {nodes : List Node}
    (silent : ∀ n ∈ nodes, ∀ s : Scope α, (evaluate preferences n s).value.isSome = true →
      (evaluate preferences n s).reports = [])
    {s : Scope α} (valued : (evaluateAll preferences nodes s).values.isSome = true) :
    (evaluateAll preferences nodes s).reports = [] := by
  induction nodes generalizing s with
  | nil => rfl
  | cons n rest ih =>
      obtain ⟨first, others⟩ := List.forall_mem_cons.mp silent
      obtain ⟨values, all⟩ := Option.isSome_iff_exists.mp valued
      obtain ⟨x, hx, xs, hxs, -⟩ : ∃ x, (evaluate preferences n s).value = some x ∧ ∃ xs,
          (evaluateAll preferences rest (evaluate preferences n s).scope).values = some xs
            ∧ x :: xs = values := by
        simpa [evaluateAll, Option.bind_eq_some_iff] using all
      have after := ih others (s := (evaluate preferences n s).scope) (by simp [hxs])
      simp [evaluateAll, first s (by simp [hx]), after]

/-- There is nothing to report on a tree that has a value. -/
theorem evaluate_silent {n : Node} {s : Scope α}
    (valued : (evaluate preferences n s).value.isSome = true) :
    (evaluate preferences n s).reports = [] := by
  induction n using Node.inductionOnChildren generalizing s with
  | node n ih =>
      obtain ⟨children, silent⟩ := ownReports_silent preferences valued
      have below :=
        evaluateAll_silent preferences (fun c hc _ => ih c (n.visited_subset hc)) children
      rw [evaluate_reports, below, silent, List.append_nil]

/-! ### The reports of a tree -/

/-- What a node reports in its turn is among what all of them report. -/
theorem getElem?_evaluateAll_subset {nodes : List Node} {i : Nat} {n : Node}
    (found : nodes[i]? = some n) (s : Scope α) :
    (evaluate preferences n (evaluateAll preferences (nodes.take i) s).scope).reports
      ⊆ (evaluateAll preferences nodes s).reports := by
  induction nodes generalizing i s with
  | nil => simp at found
  | cons m rest ih =>
      cases i with
      | zero =>
          cases found
          exact List.subset_append_left _ _
      | succ i =>
          simp only [evaluateAll, List.take_succ_cons]
          exact List.Subset.trans (ih found _) (List.subset_append_right _ _)

/-- What a node reports by itself is reported of the tree. -/
theorem reportsAt_subset (n : Node) (s : Scope α) (p : Position) :
    reportsAt preferences n s p ⊆ (evaluate preferences n s).reports := by
  rw [evaluate_reports]
  induction p generalizing n s with
  | nil => exact List.subset_append_right _ _
  | cons i p ih =>
      rw [reportsAt]
      split
      next child found =>
        refine List.Subset.trans ?_ (List.subset_append_left _ _)
        refine List.Subset.trans ?_ (getElem?_evaluateAll_subset preferences found s)
        rw [evaluate_reports]
        exact ih child _
      next => exact List.nil_subset _

/-- What several nodes report is what is reported at the positions in them. -/
theorem flatMap_among {nodes : List Node}
    (each : ∀ n ∈ nodes, ∀ s : Scope α, (evaluate preferences n s).reports
      = n.postOrder.flatMap (reportsAt preferences n s))
    {k : Nat} {s : Scope α} {f : Position → List (Diagnostic α)}
    (inside : ∀ i n, nodes[i]? = some n → ∀ p, f ((k + i) :: p)
      = reportsAt preferences n (evaluateAll preferences (nodes.take i) s).scope p) :
    (Position.among k (nodes.map Node.postOrder)).flatMap f
      = (evaluateAll preferences nodes s).reports := by
  induction nodes generalizing k s with
  | nil => rfl
  | cons n rest ih =>
      obtain ⟨first, others⟩ := List.forall_mem_cons.mp each
      have here : ∀ p, f (k :: p) = reportsAt preferences n s p := inside 0 n rfl
      have there := ih others (k := k + 1) (s := (evaluate preferences n s).scope) (by
        intro i m found p
        rw [Nat.add_assoc, Nat.add_comm 1]
        exact inside (i + 1) m found p)
      simp [Position.among, evaluateAll, List.flatMap_map, here, first, there]

/-- The reports of a tree are those of its nodes, in the order of the walk. -/
theorem reports_eq_flatMap (n : Node) (s : Scope α) :
    (evaluate preferences n s).reports = n.postOrder.flatMap (reportsAt preferences n s) := by
  induction n using Node.inductionOnChildren generalizing s with
  | node n ih =>
      rw [evaluate_reports, Node.postOrder_eq, List.flatMap_append]
      refine congrArg₂ (· ++ ·) ?_ (by simp [reportsAt])
      cases readable : n.isReadable α with
      | true =>
        have visited := Node.visited_of_readable readable
        rw [visited, flatMap_among preferences ih (s := s)]
        intro i child found p
        simp [reportsAt, visited, found]
      | false =>
        -- Nothing is reported below a node whose literal cannot be read.
        have visited := Node.visited_of_unreadable readable
        have silent : ∀ p ∈ Position.among 0 (n.children.map Node.postOrder),
            reportsAt preferences n s p = [] := by
          intro p hp
          obtain ⟨i, -, q, -, -, rfl⟩ := Position.mem_among_iff.mp hp
          simp [reportsAt, visited]
        rw [List.flatMap_eq_nil_iff.mpr silent, visited]
        rfl

/-- Where something is reported, it comes from the handling of the node there. -/
theorem reportsAt_cases (n : Node) (s : Scope α) (p : Position) :
    reportsAt preferences n s p = [] ∨ ∃ m s' values, n.at? p = some m
      ∧ reportsAt preferences n s p = (m.handle preferences s' values).reports := by
  induction p generalizing n s with
  | nil =>
      rcases ownReports_cases preferences n s with silent | ⟨values, -, handled⟩
      · exact .inl silent
      · exact .inr ⟨n, _, values, rfl, handled⟩
  | cons i p ih =>
      rw [reportsAt, Node.at?]
      cases visited : (n.visited α)[i]? with
      | none => exact .inl rfl
      | some child =>
          simpa [Node.getElem?_visited visited] using ih child _

/-- A node that reports something has been handled, so that nothing was reported below it. -/
theorem ownReports_eq_nil_or_below {n : Node} {s : Scope α} (i : Nat) (p : Position) :
    ownReports preferences n s = [] ∨ reportsAt preferences n s (i :: p) = [] := by
  rcases ownReports_cases preferences n s with silent | ⟨values, all, -⟩
  · exact .inl silent
  · right
    have below : (evaluateAll preferences (n.visited α) s).reports = [] :=
      evaluateAll_silent preferences (fun _ _ _ => evaluate_silent preferences) (by simp [all])
    rw [reportsAt]
    split
    next child found =>
      have inside := List.Subset.trans (reportsAt_subset preferences child _ p)
        (getElem?_evaluateAll_subset preferences found s)
      rw [below] at inside
      exact List.subset_nil.mp inside
    next => rfl

/-- Of two positions above each other, one has nothing to report. -/
theorem reportsAt_above {n : Node} {s : Scope α} {p q : Position} (above : p.Above q) :
    reportsAt preferences n s p = [] ∨ reportsAt preferences n s q = [] := by
  obtain ⟨i, rest, rfl⟩ := above
  induction p generalizing n s with
  | nil => exact ownReports_eq_nil_or_below preferences i rest
  | cons j p ih =>
      simp only [List.cons_append, reportsAt]
      split
      next child _ => exact ih
      next => exact .inl rfl

/-- Whatever operators there are: the diagnostics of a tree are what its nodes report by themselves
when they are handled, each node in its place in the order from left to right, in which what is
below a node comes first.  A node reports two errors at most, and none if one above or below it
reports any. -/
theorem errors_do_not_cascade (s : Scope α) (preferences : Preferences) (n : Node) :
    let made := reportsAt preferences n s
    (evaluateStatement s preferences n).1.diagnostics = n.postOrder.flatMap made
      ∧ (n.postOrder.Pairwise Position.Before ∧ n.postOrder.Nodup
        ∧ ∀ p, p ∈ n.postOrder ↔ ∃ m, n.at? p = some m)
      ∧ (∀ p, made p = [] ∨ ∃ m s' values, n.at? p = some m
        ∧ made p = (m.handle preferences s' values).reports)
      ∧ (∀ p, (made p).length ≤ 2)
      ∧ ∀ p q, p.Above q → made p = [] ∨ made q = [] := by
  have handled := reportsAt_cases preferences n s
  refine ⟨reports_eq_flatMap preferences n s, ⟨n.pairwise_postOrder, n.nodup_postOrder, ?_⟩,
    handled, ?_, ?_⟩
  · intro p
    exact Node.mem_postOrder_iff
  · intro p
    rcases handled p with silent | ⟨m, s', values, -, reports⟩
    · simp [silent]
    · rw [reports]
      exact (handle_single preferences s' m values).length_le
  · intro p q above
    exact reportsAt_above preferences above

/-! ### An unknown name in a product -/

section Unknown

/-- The product `(1 + foo) * 2`, in which the name is not known. -/
def productWithUnknown : Node :=
  .binary "*" ⟨"*", ⟨10, 11⟩⟩
    (.parenthesis
      (.binary "+" ⟨"+", ⟨3, 4⟩⟩ (.number "1" ⟨1, 2⟩) (.identifier "foo" ⟨5, 8⟩) ⟨1, 8⟩) ⟨0, 9⟩)
    (.number "2" ⟨12, 13⟩) ⟨0, 13⟩

/-- The name is reported, and the product is not. -/
theorem unknown_does_not_cascade :
    let made := reportsAt Preferences.standard productWithUnknown (Scope.standard : Scope Float)
    Position.Above [] [0, 0, 1]
      ∧ made [0, 0, 1] = [⟨.unknownVariable "foo" none, ⟨5, 8⟩, none⟩]
      ∧ made [] = []
      ∧ (evaluateStatement (Scope.standard : Scope Float) Preferences.standard
          productWithUnknown).1.diagnostics = made [0, 0, 1] := by
  intro made
  have above : Position.Above [] [0, 0, 1] := ⟨0, [0, 1], rfl⟩
  have reported : made [0, 0, 1] = [⟨.unknownVariable "foo" none, ⟨5, 8⟩, none⟩] := rfl
  obtain ⟨together, -, -, -, apart⟩ :=
    errors_do_not_cascade (Scope.standard : Scope Float) Preferences.standard productWithUnknown
  refine ⟨above, reported, ?_, ?_⟩
  · rcases apart _ _ above with silent | missing
    · exact silent
    · exact absurd (reported.symm.trans missing) (List.cons_ne_nil _ _)
  · rw [together]
    rfl

end Unknown

end QuantityCalculus
