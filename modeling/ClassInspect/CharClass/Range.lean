/-!
# Ranges of characters

Character properties beyond ASCII are tables of ranges in increasing order, both ends
included. Membership is a plain search, so that a property of a table is a property of its
rows.
-/

namespace ClassInspect.CharClass

/-- Whether one of the ranges holds the number. -/
def inRanges (ranges : List (Nat × Nat)) (value : Nat) : Bool :=
  ranges.any fun range ↦ range.1 ≤ value && value ≤ range.2

/-- A number lies in a table exactly when some row has it between its ends. -/
theorem inRanges_iff {ranges : List (Nat × Nat)} {value : Nat} :
    inRanges ranges value = true ↔ ∃ range ∈ ranges, range.1 ≤ value ∧ value ≤ range.2 := by
  simp [inRanges]

end ClassInspect.CharClass
