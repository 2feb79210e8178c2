namespace LectureQuiz.Text

/-- Inclusive ranges of code points, in increasing order. -/
abbrev CodeRanges := List (Nat × Nat)

/-- Whether one of the ranges holds the code point. -/
def CodeRanges.covers (ranges : CodeRanges) (code : Nat) : Bool :=
  ranges.any fun range => range.1 ≤ code && code ≤ range.2

theorem CodeRanges.covers_iff
    (ranges : CodeRanges) (code : Nat) :
    ranges.covers code = true ↔
      ∃ range ∈ ranges, range.1 ≤ code ∧ code ≤ range.2 := by
  simp [CodeRanges.covers]

end LectureQuiz.Text
