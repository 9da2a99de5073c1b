/-!
# Sets of code points

A set of code points is given by the inclusive ranges that make it up.
-/

namespace ExpectError.Text

/-- A set of code points as a list of inclusive ranges. -/
abbrev Ranges := List (Nat × Nat)

/-- Does one of the ranges hold the code point? -/
def Ranges.contains (table : Ranges) (code : Nat) : Bool :=
  table.any fun range => decide (range.1 ≤ code) && decide (code ≤ range.2)

theorem Ranges.contains_iff (table : Ranges) (code : Nat) :
    table.contains code = true ↔ ∃ range ∈ table, range.1 ≤ code ∧ code ≤ range.2 := by
  simp [Ranges.contains]

end ExpectError.Text
