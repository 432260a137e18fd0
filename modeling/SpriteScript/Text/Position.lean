-- Places in a text: byte ranges, and the line and column pairs that an editor speaks of.
namespace SpriteScript.Text

-- A line and a column, both from zero; the column counts UTF-16 units.
structure Position where
  line : Nat
  column : Nat
deriving DecidableEq, Repr, Inhabited, Hashable

namespace Position

def lt (a b : Position) : Bool := a.line < b.line || (a.line == b.line && a.column < b.column)

def le (a b : Position) : Bool := a.line < b.line || (a.line == b.line && a.column ≤ b.column)

end Position

structure Span where
  start : Position
  stop : Position
deriving DecidableEq, Repr, Inhabited, Hashable

namespace Span

-- Both ends belong to the span.
def contains (s : Span) (p : Position) : Bool := s.start.le p && p.le s.stop

-- Spans overlap when they share more than an end, when they start together, or when one is
-- empty and lies in the other.
def overlaps (a b : Span) : Bool :=
  (a.start.lt b.stop && b.start.lt a.stop) || a.start == b.start ||
    (a.start == a.stop && b.contains a.start) || (b.start == b.stop && a.contains b.start)

end Span

-- A run of bytes, from `start` up to but not including `stop`.
structure ByteRange where
  start : Nat
  stop : Nat
deriving DecidableEq, Repr, Inhabited, Hashable

namespace ByteRange

def empty (offset : Nat) : ByteRange := ⟨offset, offset⟩

def length (r : ByteRange) : Nat := r.stop - r.start

def isEmpty (r : ByteRange) : Bool := r.start == r.stop

def contains (r : ByteRange) (offset : Nat) : Bool := r.start ≤ offset && offset < r.stop

-- Like `contains`, and the offset just behind the last byte counts as well.
def touches (r : ByteRange) (offset : Nat) : Bool := r.start ≤ offset && offset ≤ r.stop

def includes (outer inner : ByteRange) : Bool :=
  outer.start ≤ inner.start && inner.stop ≤ outer.stop

end ByteRange

end SpriteScript.Text
