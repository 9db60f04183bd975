/-
Module: QuantityCalculus.Expression.Span
Layer: Expression
Purpose: Ranges of bytes in the source text of a statement.
Imports: none
Trusted boundary: none
Main exports: Span, Span.ofText, Span.extend, Span.lastOffset, Span.compare
Open obligations: none
-/
namespace QuantityCalculus

/-- The bytes from `start` up to but not including `stop` of a text in UTF-8. -/
structure Span where
  start : Nat
  stop : Nat
deriving DecidableEq, Repr, Inhabited

namespace Span

/-- The bytes that a text covers from an offset on. -/
def ofText (offset : Nat) (text : String) : Span := ⟨offset, offset + text.utf8ByteSize⟩

/-- The number of bytes. -/
def length (s : Span) : Nat := s.stop - s.start

def isEmpty (s : Span) : Bool := s.start == s.stop

/-- The offset of the last byte, or of the start if there is none. -/
def lastOffset (s : Span) : Nat := max (s.stop - 1) s.start

/-- The smallest span that covers two spans. -/
def extend (s t : Span) : Span := ⟨min s.start t.start, max s.stop t.stop⟩

/-- Spans are ordered by where they start, then by where they stop. -/
def compare (s t : Span) : Ordering :=
  (Ord.compare s.start t.start).then (Ord.compare s.stop t.stop)

end Span

end QuantityCalculus
