/-!
# Positions and spans

A position is a one-based line and column of a script, a span the region
between two of them.  Both are machine words, because that is the width in
which they are stored and exchanged; positions are ordered line first.
-/

namespace TinyScript

structure Position where
  line : UInt32
  column : UInt32
  deriving DecidableEq, Repr, Inhabited

namespace Position

/-- Positions are ordered by line, and by column within one line. -/
instance : LE Position where
  le p q := p.line < q.line ∨ p.line = q.line ∧ p.column ≤ q.column

instance : DecidableLE Position := fun p q =>
  inferInstanceAs (Decidable (p.line < q.line ∨ p.line = q.line ∧ p.column ≤ q.column))

instance : Min Position := minOfLe

instance : Max Position := maxOfLe

def label (p : Position) : String :=
  toString p.line ++ ":" ++ toString p.column

end Position

/-- A region of a script, from the position of its first character to the one behind its last. -/
structure Span where
  start : Position
  stop : Position
  deriving DecidableEq, Repr, Inhabited

namespace Span

def point (p : Position) : Span := ⟨p, p⟩

/-- The smallest span that covers both arguments. -/
def merge (a b : Span) : Span := ⟨min a.start b.start, max a.stop b.stop⟩

def label (a : Span) : String := a.start.label

end Span

end TinyScript
