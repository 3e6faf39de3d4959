import Elementwise.Failure

/-!
# Sequences of prefixes

A sequence hands out numbers one after another.  Every prefix is made from a number of its own, so
two compilations that draw from one sequence never generate the same name.
-/

set_option autoImplicit false
namespace Elementwise

/-- A source of prefixes: the number it hands out next. -/
structure PrefixSequence where
  next : Nat := 0
deriving DecidableEq, Inhabited, Repr

namespace PrefixSequence

/-- A sequence that begins with a given number, which must not be negative. -/
def ofStart? (start : Int) : Except Failure PrefixSequence :=
  if start < 0 then .error (.negativeStart start) else .ok ⟨start.toNat⟩

/-- The next number, and the sequence behind it. -/
def draw (s : PrefixSequence) : Nat × PrefixSequence := (s.next, ⟨s.next + 1⟩)

/-- The prefix made from a stem and a number. -/
def prefixFor (stem : Text) (number : Nat) : Text := stem ++ .ofNat number ++ [.scalar '_']

/-- The next prefix, and the sequence behind it. -/
def drawPrefix (stem : Text) (s : PrefixSequence) : Text × PrefixSequence :=
  (prefixFor stem s.next, s.draw.2)

end PrefixSequence
end Elementwise
