/-!
# Ranges of code point numbers

A property of characters is given here by a table: the inclusive ranges of numbers that have it, in
increasing order and apart from each other.
-/

set_option autoImplicit false
namespace Elementwise
namespace Unicode

/-- Whether a number lies in one of the ranges. -/
def inRanges (ranges : List (Nat × Nat)) (n : Nat) : Bool :=
  ranges.any fun r => r.1 ≤ n && n ≤ r.2

/-- A number is in a table exactly if one of its ranges holds it. -/
theorem inRanges_iff {ranges : List (Nat × Nat)} {n : Nat} :
    inRanges ranges n = true ↔ ∃ r ∈ ranges, r.1 ≤ n ∧ n ≤ r.2 := by
  simp [inRanges, List.any_eq_true]

end Unicode
end Elementwise
