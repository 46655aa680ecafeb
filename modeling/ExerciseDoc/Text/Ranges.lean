/-!
# Text — tables of characters

A class of characters that no formula gives is a table of closed ranges of code
points.
-/

namespace ExerciseDoc.Text

/-- Whether a table of closed ranges holds a character. -/
def inRanges (table : List (Nat × Nat)) (c : Char) : Bool :=
  table.any fun (lo, hi) => lo ≤ c.toNat && c.toNat ≤ hi

theorem inRanges_iff {table : List (Nat × Nat)} {c : Char} :
    inRanges table c = true ↔ ∃ r ∈ table, r.1 ≤ c.toNat ∧ c.toNat ≤ r.2 := by
  simp [inRanges]

end ExerciseDoc.Text
