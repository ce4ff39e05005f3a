/-!
This file tests membership of a code point in an ascending table of inclusive ranges.
-/

namespace TypeGraph.Text

/-- A range table lists inclusive code point ranges in ascending order. -/
abbrev RangeTable := List (Nat × Nat)

/-- The search stops at the first range that starts above the code point. -/
def RangeTable.contains : RangeTable → Nat → Bool
  | [], _ => false
  | (first, last) :: rest, code =>
      decide (first ≤ code) && (decide (code ≤ last) || RangeTable.contains rest code)

/-- Every member lies inside one of the listed ranges. -/
theorem RangeTable.exists_range_of_contains {table : RangeTable} {code : Nat}
    (member : table.contains code = true) :
    ∃ range ∈ table, range.1 ≤ code ∧ code ≤ range.2 := by
  induction table with
  | nil => simp [RangeTable.contains] at member
  | cons range rest inductionHypothesis =>
      simp only [RangeTable.contains, Bool.and_eq_true, Bool.or_eq_true,
        decide_eq_true_eq] at member
      rcases member with ⟨above, below | later⟩
      · exact ⟨range, List.mem_cons_self, above, below⟩
      · obtain ⟨found, listed, bounds⟩ := inductionHypothesis later
        exact ⟨found, List.mem_cons_of_mem _ listed, bounds⟩

end TypeGraph.Text
