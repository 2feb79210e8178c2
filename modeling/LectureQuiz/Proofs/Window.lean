import LectureQuiz.Window

namespace LectureQuiz.Window

variable {bounds : Bounds} {text : List Char}

theorem flatten_split (bounds : Bounds) (text : List Char) :
    (split bounds text).flatten = text := by
  fun_induction split bounds text with
  | case1 => rfl
  | case2 character rest length inductionHypothesis =>
      rw [List.flatten_cons, inductionHypothesis, List.take_append_drop]

theorem le_of_mem_starts
    {position start : Nat} {windows : List (List Char)}
    (member : start ∈ starts position windows) :
    start ≤ position + windows.flatten.length := by
  induction windows generalizing position with
  | nil => exact absurd member List.not_mem_nil
  | cons window rest inductionHypothesis =>
      rw [List.flatten_cons, List.length_append]
      rcases List.mem_cons.1 member with rfl | later
      · omega
      · have bound := inductionHypothesis later
        omega

/-- Windows start inside the text. -/
theorem inRange_of_length
    (short : text.length + bounds.size < UInt64.size) :
    inRange bounds text = true := by
  apply List.all_eq_true.2
  intro start member
  have bound := le_of_mem_starts member
  rw [flatten_split] at bound
  apply decide_eq_true
  omega

end LectureQuiz.Window
