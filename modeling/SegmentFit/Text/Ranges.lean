/-!
# Ranges — sets of characters given by closed ranges of code points
-/

namespace SegmentFit.Text

/-- A closed range of code points. -/
abbrev CodeRange := Nat × Nat

def inRanges (ranges : List CodeRange) (code : Nat) : Bool :=
  ranges.any fun r => decide (r.1 ≤ code) && decide (code ≤ r.2)

/-- Whether ranges ascend and keep apart. -/
def ascending : List CodeRange → Bool
  | [] => true
  | [r] => decide (r.1 ≤ r.2)
  | r :: s :: rest => decide (r.1 ≤ r.2) && decide (r.2 + 1 < s.1) && ascending (s :: rest)

def rangeCount (ranges : List CodeRange) : Nat :=
  ranges.foldl (fun count r => count + (r.2 + 1 - r.1)) 0

theorem inRanges_iff (ranges : List CodeRange) (code : Nat) :
    inRanges ranges code = true ↔ ∃ r ∈ ranges, r.1 ≤ code ∧ code ≤ r.2 := by
  simp [inRanges]

end SegmentFit.Text
