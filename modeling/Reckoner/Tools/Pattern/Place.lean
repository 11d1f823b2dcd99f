/-!
# Places in a pattern

A place stands before a character or at the end.  It has an index, by which places are ordered,
and a line and a column, by which they are shown; both count from one.
-/

namespace Reckoner.Pattern

structure Place where
  index : Nat := 0
  line : Nat := 1
  column : Nat := 1
deriving DecidableEq

/-- The place behind the character `c` that stands at `p`. -/
def Place.after (p : Place) (c : Char) : Place :=
  if c = '\n' then ⟨p.index + 1, p.line + 1, 1⟩ else ⟨p.index + 1, p.line, p.column + 1⟩

/-- What stands between two places. -/
structure Span where
  start : Place
  stop : Place
deriving DecidableEq

namespace Span

/-- The empty span at `p`. -/
def point (p : Place) : Span :=
  ⟨p, p⟩

def onOneLine (s : Span) : Bool :=
  s.start.line = s.stop.line

/-- The number of columns of a span on one line. -/
def width (s : Span) : Nat :=
  s.stop.column - s.start.column

/-- Spans are ordered by where they start, and then by where they stop. -/
def le (s t : Span) : Bool :=
  s.start.index < t.start.index ||
    s.start.index = t.start.index && s.stop.index ≤ t.stop.index

end Span

end Reckoner.Pattern
