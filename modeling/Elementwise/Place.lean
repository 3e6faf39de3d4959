import Elementwise.CodePoint

/-!
# Places and spans

A `Place` is where a reader stands in a source text: an offset together with the line it lies on.
A `Span` is the part of a text that a construct covers.
-/

set_option autoImplicit false
namespace Elementwise

/-- The part of a text from offset `start` up to, and without, offset `stop`. -/
structure Span where
  start : Nat
  stop : Nat
deriving DecidableEq, Inhabited, Repr

/-- A position in a text: an offset, the number of its line and the offset at which that line
starts. -/
structure Place where
  index : Nat
  line : Nat
  lineStart : Nat
deriving DecidableEq, Inhabited, Repr

namespace Place

/-- The beginning of a text.  Lines count from one; an empty text has no line, and its only place
is on line zero. -/
def beginning (text : Text) : Place := ⟨0, if text.isEmpty then 0 else 1, 0⟩

/-- The place `n` code points further on the same line. -/
def step (p : Place) (n : Nat) : Place := { p with index := p.index + n }

/-- The place behind a line terminator of `n` code points. -/
def newLine (p : Place) (n : Nat) : Place := ⟨p.index + n, p.line + 1, p.index + n⟩

/-- The column of an offset, counted from one, relative to the line of this place.  An offset on an
earlier line has a column below one. -/
def columnOf (p : Place) (index : Nat) : Int := (index : Int) - (p.lineStart : Int) + 1

/-- The column of a place, counted from one. -/
def column (p : Place) : Int := p.columnOf p.index

end Place

namespace Text

/-- The part of a text that a span covers. -/
def slice (t : Text) (s : Span) : Text := (t.take s.stop).drop s.start

end Text
end Elementwise
