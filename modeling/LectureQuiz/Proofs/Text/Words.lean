import Mathlib.Data.List.Infix
import LectureQuiz.Proofs.Text.Normalized

namespace LectureQuiz.Text

variable {word text line first rest : List Char} {separator : Char}

/-- A word does not reach over a character that it does not hold. -/
theorem isInfix_append_cons_iff (single : separator ∉ word) :
    word <:+: first ++ separator :: rest ↔ word <:+: first ∨ word <:+: rest := by
  constructor
  · intro inside
    rcases List.infix_append_iff.1 inside with inFirst | behind | ⟨front, back, rfl, ends, starts⟩
    · exact Or.inl inFirst
    · rcases List.infix_cons_iff.1 behind with starts | inRest
      · rcases List.prefix_cons_iff.1 starts with rfl | ⟨more, rfl, _⟩
        · exact Or.inl List.nil_infix
        · exact absurd List.mem_cons_self single
      · exact Or.inr inRest
    · rcases List.prefix_cons_iff.1 starts with rfl | ⟨more, rfl, _⟩
      · rw [List.append_nil]
        exact Or.inl ends.isInfix
      · exact absurd (List.mem_append_right front List.mem_cons_self) single
  · rintro (inFirst | inRest)
    · exact inFirst.trans ⟨[], separator :: rest, rfl⟩
    · exact inRest.trans ⟨first ++ [separator], [], by simp⟩

theorem isInfix_dropReturn_iff (noReturn : '\r' ∉ word) :
    word <:+: dropReturn line ↔ word <:+: line := by
  by_cases ends : line.getLast? = some '\r'
  · obtain ⟨start, rfl⟩ := List.getLast?_eq_some_iff.1 ends
    rw [dropReturn_append_return, isInfix_append_cons_iff noReturn, List.infix_nil]
    constructor
    · exact Or.inl
    · rintro (inStart | rfl)
      · exact inStart
      · exact List.nil_infix
  · rw [dropReturn, if_neg ends]

theorem isInfix_iff_lines
    (notEmpty : word ≠ []) (noFeed : '\n' ∉ word) (noReturn : '\r' ∉ word)
    (text : List Char) :
    word <:+: text ↔ ∃ line ∈ lines text, word <:+: line := by
  by_cases hasFeed : '\n' ∈ text
  · obtain ⟨line, rest, rfl, single⟩ := List.eq_append_cons_of_mem hasFeed
    rw [lines_append_feed_of_not_mem single, isInfix_append_cons_iff noFeed,
      isInfix_iff_lines notEmpty noFeed noReturn rest]
    simp only [List.mem_cons, exists_eq_or_imp, isInfix_dropReturn_iff noReturn]
  · rw [lines, pieces_of_not_mem hasFeed, endedLines]
    by_cases isEmpty : text = []
    · simp [isEmpty, notEmpty]
    · simp [isEmpty]
termination_by text.length

theorem isInfix_joinLines_iff
    (notEmpty : word ≠ []) (noFeed : '\n' ∉ word) (parts : List (List Char)) :
    word <:+: joinLines parts ↔ ∃ part ∈ parts, word <:+: part := by
  induction parts with
  | nil => simp [joinLines, join, notEmpty]
  | cons first others inductionHypothesis =>
      by_cases isLast : others = []
      · simp [isLast, joinLines, join]
      · rw [joinLines, join_cons first isLast, isInfix_append_cons_iff noFeed, ← joinLines,
          inductionHypothesis]
        simp only [List.mem_cons, exists_eq_or_imp]

theorem isInfix_trim (text : List Char) : trim text <:+: text := by
  obtain ⟨before, after, whole, _, _⟩ := strip_decomposition isBlank text
  refine ⟨before, after, ?_⟩
  rw [trim, List.append_assoc]
  exact whole.symm

theorem filter_of_blank (blank : ∀ character ∈ text, isBlank character = true) :
    text.filter (!isBlank ·) = [] := by
  simpa using blank

/-- Dropping blanks at the ends keeps every other character. -/
theorem filter_strip
    {drop : Char → Bool} (blank : ∀ character, drop character = true → isBlank character = true)
    (text : List Char) :
    (strip drop text).filter (!isBlank ·) = text.filter (!isBlank ·) := by
  obtain ⟨before, after, whole, allBefore, allAfter⟩ := strip_decomposition drop text
  have noneBefore := filter_of_blank fun character member =>
    blank character (allBefore character member)
  have noneAfter := filter_of_blank fun character member =>
    blank character (allAfter character member)
  conv_rhs => rw [whole]
  rw [List.filter_append, List.filter_append, noneBefore, noneAfter, List.nil_append,
    List.append_nil]

theorem filter_dropTrailing (line : List Char) :
    (dropTrailing isBlank line).filter (!isBlank ·) = line.filter (!isBlank ·) := by
  have dropped : ∀ character ∈ (line.reverse.takeWhile isBlank).reverse,
      isBlank character = true :=
    fun _ member => List.mem_takeWhile_imp (List.mem_reverse.1 member)
  conv_rhs => rw [← dropTrailing_append_takeWhile isBlank line]
  rw [List.filter_append, filter_of_blank dropped, List.append_nil]

theorem filter_dropReturn (line : List Char) :
    (dropReturn line).filter (!isBlank ·) = line.filter (!isBlank ·) := by
  obtain ⟨blanks, whole, blank⟩ := exists_blanks_dropReturn line
  conv_rhs => rw [whole]
  rw [List.filter_append, filter_of_blank blank, List.append_nil]

theorem filter_cons_feed (rest : List Char) :
    ('\n' :: rest).filter (!isBlank ·) = rest.filter (!isBlank ·) :=
  List.filter_cons_of_neg (by decide)

theorem filter_joinLines (parts : List (List Char)) :
    (joinLines parts).filter (!isBlank ·) = parts.flatten.filter (!isBlank ·) := by
  induction parts with
  | nil => rfl
  | cons first others inductionHypothesis =>
      by_cases isLast : others = []
      · simp [isLast, joinLines, join]
      · rw [joinLines, join_cons first isLast, List.filter_append, filter_cons_feed,
          ← joinLines, inductionHypothesis, List.flatten_cons, List.filter_append]

theorem filter_flatten_lines (text : List Char) :
    (lines text).flatten.filter (!isBlank ·) = text.filter (!isBlank ·) := by
  by_cases hasFeed : '\n' ∈ text
  · obtain ⟨line, rest, rfl, single⟩ := List.eq_append_cons_of_mem hasFeed
    rw [lines_append_feed_of_not_mem single, List.flatten_cons, List.filter_append,
      filter_dropReturn, filter_flatten_lines rest, List.filter_append, filter_cons_feed]
  · rw [lines, pieces_of_not_mem hasFeed, endedLines]
    by_cases isEmpty : text = []
    · rw [if_pos isEmpty, isEmpty]
      rfl
    · rw [if_neg isEmpty, List.flatten_singleton]
termination_by text.length

end LectureQuiz.Text
