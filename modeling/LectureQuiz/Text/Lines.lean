/-!
# Lines

A text is read as lines in two ways. `pieces` cuts at every separator and keeps
all parts, so joining them gives the text back. `lines` ends each line with a
line feed, drops one carriage return before it, and has no empty line after the
last line feed.
-/

namespace LectureQuiz.Text

/-- The parts of a text between its separators; there is always at least one. -/
def pieces (separator : Char) : List Char → List (List Char)
  | [] => [[]]
  | character :: rest =>
      if character = separator then
        [] :: pieces separator rest
      else
        match pieces separator rest with
        | [] => [[character]]
        | first :: others => (character :: first) :: others

/-- Puts one separator between neighbouring parts. -/
def join (separator : Char) (parts : List (List Char)) : List Char :=
  List.intercalate [separator] parts

theorem pieces_ne_nil (separator : Char) (text : List Char) :
    pieces separator text ≠ [] := by
  cases text with
  | nil => simp [pieces]
  | cons character rest =>
      unfold pieces
      split
      · simp
      · split <;> simp

/-- Joining the parts of a text gives the text back. -/
theorem join_pieces (separator : Char) (text : List Char) :
    join separator (pieces separator text) = text := by
  induction text with
  | nil => rfl
  | cons character rest inductionHypothesis =>
      have notEmpty := pieces_ne_nil separator rest
      unfold pieces
      by_cases isSeparator : character = separator
      · rw [if_pos isSeparator]
        cases parts : pieces separator rest with
        | nil => exact absurd parts notEmpty
        | cons first others =>
            rw [parts] at inductionHypothesis
            subst isSeparator
            simp only [join, List.intercalate] at inductionHypothesis ⊢
            simp [List.intersperse, inductionHypothesis]
      · rw [if_neg isSeparator]
        cases parts : pieces separator rest with
        | nil => exact absurd parts notEmpty
        | cons first others =>
            rw [parts] at inductionHypothesis
            cases others with
            | nil =>
                simp only [join, List.intercalate] at inductionHypothesis ⊢
                simpa [List.intersperse] using inductionHypothesis
            | cons second more =>
                simp only [join, List.intercalate] at inductionHypothesis ⊢
                simpa [List.intersperse] using inductionHypothesis

/-- A line without the carriage return at its end. -/
def dropReturn (line : List Char) : List Char :=
  if line.getLast? = some '\r' then line.dropLast else line

/-- The lines of the parts between line feeds: all but the last part were ended
by one. -/
def endedLines : List (List Char) → List (List Char)
  | [] => []
  | [last] => if last = [] then [] else [last]
  | line :: rest => dropReturn line :: endedLines rest

def lines (text : List Char) : List (List Char) :=
  endedLines (pieces '\n' text)

/-- Lines joined by line feeds. -/
def joinLines (lines : List (List Char)) : List Char :=
  join '\n' lines

end LectureQuiz.Text
