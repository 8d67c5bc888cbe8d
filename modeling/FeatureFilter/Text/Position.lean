namespace FeatureFilter.Text

/-- A point in a text: the bytes before it, its line, and its column counted in characters. Lines
and columns start at one. -/
structure Position where
  offset : Nat
  line : Nat
  column : Nat
deriving DecidableEq, Repr

namespace Position

/-- The point before the first character. -/
def origin : Position := ⟨0, 1, 1⟩

/-- The point behind one more character. A line feed starts the next line. -/
def advance (p : Position) (c : Char) : Position :=
  if c = '\n' then ⟨p.offset + 1, p.line + 1, 1⟩ else ⟨p.offset + c.utf8Size, p.line, p.column + 1⟩

/-- The point behind a stretch of characters. -/
def after (p : Position) (cs : List Char) : Position := cs.foldl advance p

end Position

/-- A stretch of a text: the byte offsets of its ends and the place where it starts. -/
structure Span where
  start : Nat
  stop : Nat
  line : Nat
  column : Nat
deriving DecidableEq, Repr

namespace Span

/-- The span of a tree that was not read from a text. -/
def zero : Span := ⟨0, 0, 0, 0⟩

/-- The stretch between two points. -/
def between (a b : Position) : Span := ⟨a.offset, b.offset, a.line, a.column⟩

end Span
end FeatureFilter.Text
