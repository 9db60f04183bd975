/-
Module: QuantityCalculus.Proofs.Expression.Run
Layer: Proofs
Purpose: Folding a run of operators and operands into a tree loses nothing and moves nothing.  Along
  the operators of the fold, the tree reads as the run that it was made of, it covers nothing but
  that run, and one more operator goes on top of the tree of the others: at the end of a run that
  groups to the left, at the start of one that groups to the right.
Imports: Mathlib.Data.List.Induction, QuantityCalculus.Proofs.Expression.Nesting
Trusted boundary: none
Main exports: Span.IsLeastCover, Piece, Run.pieces, Node.leftSpine, Node.rightSpine,
  leftSpine_foldLeft, rightSpine_foldRight, folds_rebuild_runs
Open obligations: none
-/
import Mathlib.Data.List.Induction
import QuantityCalculus.Proofs.Expression.Nesting

namespace QuantityCalculus

/-! ### The smallest span around others -/

namespace Span

variable {s t u : Span}

theorem Covers.extend (first : u.Covers s) (second : u.Covers t) : u.Covers (s.extend t) :=
  ⟨Nat.le_min.mpr ⟨first.start, second.start⟩, Nat.max_le.mpr ⟨first.stop, second.stop⟩⟩

/-- A span that covers several others, and that every span covers that does so as well. -/
structure IsLeastCover (s : Span) (parts : List Span) : Prop where
  covers : ∀ t ∈ parts, s.Covers t
  least : ∀ u : Span, (∀ t ∈ parts, u.Covers t) → u.Covers s

namespace IsLeastCover

theorem single (s : Span) : s.IsLeastCover [s] where
  covers := fun _ only => List.mem_singleton.mp only ▸ .refl s
  least := fun _ covers => covers s (List.mem_singleton_self s)

/-- Two least covers extended to each other are the least cover of both lists. -/
theorem extend {first second : List Span} (hs : s.IsLeastCover first) (ht : t.IsLeastCover second) :
    (s.extend t).IsLeastCover (first ++ second) where
  covers := by
    intro part mem
    rcases List.mem_append.mp mem with left | right
    · exact (extend_covers_left s t).trans (hs.covers part left)
    · exact (extend_covers_right s t).trans (ht.covers part right)
  least := by
    intro u covers
    have coversFirst := hs.least u fun part left => covers part (List.mem_append_left _ left)
    have coversSecond := ht.least u fun part right => covers part (List.mem_append_right _ right)
    exact coversFirst.extend coversSecond

end IsLeastCover

end Span

/-! ### Reading a run -/

/-- What a run consists of. -/
inductive Piece where
  | operand (n : Node)
  | token (t : Token)

def Piece.span : Piece → Span
  | operand n => n.span
  | token t => t.span

/-- The first operand of a run, and then each operator with the operand after it. -/
def Run.pieces (head : Node) (tail : Run) : List Piece :=
  .operand head :: tail.flatMap fun step => [.token step.1, .operand step.2]

theorem Run.pieces_cons (head : Node) (token : Token) (next : Node) (rest : Run) :
    pieces head ((token, next) :: rest) = [.operand head, .token token] ++ pieces next rest := rfl

theorem Run.pieces_concat (head : Node) (tail : Run) (token : Token) (last : Node) :
    pieces head (tail ++ [(token, last)])
      = pieces head tail ++ [.token token, .operand last] := by
  simp [pieces]

namespace Node

/-- A tree read from left to right, down to a given number of binary operators along the left
operands.  What hangs on these operators is not looked into. -/
def leftSpine : Nat → Node → List Piece
  | depth + 1, binary _ token left right _ =>
      leftSpine depth left ++ [.token token, .operand right]
  | _, n => [.operand n]

/-- A tree read from left to right, down to a given number of binary operators along the right
operands. -/
def rightSpine : Nat → Node → List Piece
  | depth + 1, binary _ token left right _ =>
      [.operand left, .token token] ++ rightSpine depth right
  | _, n => [.operand n]

/-! ### Runs of binary operators -/

/-- The last operator of a run that groups to the left is applied to all that precedes. -/
theorem foldLeft_concat (head : Node) (tail : Run) (token : Token) (last : Node) :
    foldLeft head (tail ++ [(token, last)]) = applyBinary (foldLeft head tail) token last := by
  simp [foldLeft]

/-- Along its left spine, a tree that groups to the left holds the pieces of its run. -/
theorem leftSpine_foldLeft (head : Node) (tail : Run) :
    (foldLeft head tail).leftSpine tail.length = Run.pieces head tail := by
  -- The topmost operator is the last one of the run.
  induction tail using List.reverseRecOn with
  | nil => rfl
  | append_singleton tail step ih =>
      obtain ⟨token, last⟩ := step
      rw [foldLeft_concat, List.length_append, List.length_singleton, Run.pieces_concat, ← ih]
      rfl

/-- Along its right spine, a tree that groups to the right holds the pieces of its run. -/
theorem rightSpine_foldRight (head : Node) (tail : Run) :
    (foldRight head tail).rightSpine tail.length = Run.pieces head tail := by
  induction tail generalizing head with
  | nil => rfl
  | cons step rest ih =>
      obtain ⟨token, next⟩ := step
      rw [foldRight_cons, Run.pieces_cons, ← ih next]
      rfl

/-- A binary node covers what its operands and its operator cover. -/
theorem isLeastCover_applyBinary {left right : Node} {before after : List Span}
    (first : left.span.IsLeastCover before) (token : Token)
    (second : right.span.IsLeastCover after) :
    (applyBinary left token right).span.IsLeastCover (before ++ [token.span] ++ after) :=
  (first.extend (.single token.span)).extend second

/-- A tree that groups to the left covers the pieces of its run, and nothing more. -/
theorem isLeastCover_foldLeft (head : Node) (tail : Run) :
    (foldLeft head tail).span.IsLeastCover ((Run.pieces head tail).map Piece.span) := by
  induction tail using List.reverseRecOn with
  | nil => exact .single head.span
  | append_singleton tail step ih =>
      obtain ⟨token, last⟩ := step
      have covers := isLeastCover_applyBinary ih token (.single last.span)
      simpa [foldLeft_concat, Run.pieces_concat, Piece.span] using covers

/-- A tree that groups to the right covers the pieces of its run, and nothing more. -/
theorem isLeastCover_foldRight (head : Node) (tail : Run) :
    (foldRight head tail).span.IsLeastCover ((Run.pieces head tail).map Piece.span) := by
  induction tail generalizing head with
  | nil => exact .single head.span
  | cons step rest ih =>
      obtain ⟨token, next⟩ := step
      have covers := isLeastCover_applyBinary (.single head.span) token (ih next)
      simpa [foldRight_cons, Run.pieces_cons, Piece.span] using covers

/-! ### Runs of unary operators -/

theorem foldLeading_cons (token : Token) (tokens : List Token) (operand : Node) :
    foldLeading (token :: tokens) operand = applyLeading token (foldLeading tokens operand) := rfl

theorem foldTrailing_concat (operand : Node) (tokens : List Token) (token : Token) :
    foldTrailing operand (tokens ++ [token])
      = applyTrailing (foldTrailing operand tokens) token := by
  simp [foldTrailing]

theorem isLeastCover_foldLeading (tokens : List Token) (operand : Node) :
    (foldLeading tokens operand).span.IsLeastCover (tokens.map Token.span ++ [operand.span]) := by
  induction tokens with
  | nil => exact .single operand.span
  | cons token tokens ih => exact (Span.IsLeastCover.single token.span).extend ih

/-- Trailing tokens are covered together with what they follow, and nothing more. -/
theorem isLeastCover_foldTrailing (operand : Node) (tokens : List Token) :
    (foldTrailing operand tokens).span.IsLeastCover (operand.span :: tokens.map Token.span) := by
  induction tokens using List.reverseRecOn with
  | nil => exact .single operand.span
  | append_singleton tokens token ih =>
      have covers : (applyTrailing (foldTrailing operand tokens) token).span.IsLeastCover _ :=
        ih.extend (.single token.span)
      simpa [foldTrailing_concat] using covers

/-- Folds rebuild the runs that they are given.  The operators of a fold, read in order with what
hangs on them, are those of the run, with its operands in their places; an operator more at the
outer end of a run is applied to the tree of the others; and the tree covers the tokens and the
operands of the run and nothing else. -/
theorem folds_rebuild_runs :
    (∀ head tail, (foldLeft head tail).leftSpine tail.length = Run.pieces head tail
        ∧ (foldRight head tail).rightSpine tail.length = Run.pieces head tail)
      ∧ (∀ head tail token last,
        foldLeft head (tail ++ [(token, last)]) = applyBinary (foldLeft head tail) token last)
      ∧ (∀ head token next rest,
        foldRight head ((token, next) :: rest) = applyBinary head token (foldRight next rest))
      ∧ (∀ token tokens operand,
        foldLeading (token :: tokens) operand = applyLeading token (foldLeading tokens operand))
      ∧ (∀ operand tokens token,
        foldTrailing operand (tokens ++ [token])
          = applyTrailing (foldTrailing operand tokens) token)
      ∧ (∀ head tail,
        (foldLeft head tail).span.IsLeastCover ((Run.pieces head tail).map Piece.span)
          ∧ (foldRight head tail).span.IsLeastCover ((Run.pieces head tail).map Piece.span))
      ∧ ∀ tokens operand,
        (foldLeading tokens operand).span.IsLeastCover (tokens.map Token.span ++ [operand.span])
          ∧ (foldTrailing operand tokens).span.IsLeastCover
            (operand.span :: tokens.map Token.span) := by
  refine ⟨fun head tail => ⟨leftSpine_foldLeft head tail, rightSpine_foldRight head tail⟩,
    foldLeft_concat, foldRight_cons, foldLeading_cons, foldTrailing_concat, ?_, ?_⟩
  · intro head tail
    exact ⟨isLeastCover_foldLeft head tail, isLeastCover_foldRight head tail⟩
  · intro tokens operand
    exact ⟨isLeastCover_foldLeading tokens operand, isLeastCover_foldTrailing operand tokens⟩

end Node

end QuantityCalculus
