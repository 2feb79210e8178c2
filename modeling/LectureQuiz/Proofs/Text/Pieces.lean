import LectureQuiz.Text.Lines

/-!
# Pieces and lines

Cutting at a separator is the cutting of the list library, so a separator between
two texts parts their pieces, and pieces that hold no separator are found again
after they were joined. The lines of a text follow from its pieces.
-/

namespace LectureQuiz.Text

variable {separator : Char}

theorem pieces_eq_splitOn (text : List Char) :
    pieces separator text = text.splitOn separator := by
  induction text with
  | nil => rfl
  | cons first rest inductionHypothesis =>
      rw [pieces, List.splitOn_cons_eq_if_modifyHead, inductionHypothesis]
      by_cases isSeparator : first = separator
      · simp [isSeparator]
      · cases parts : rest.splitOn separator with
        | nil => exact absurd parts (List.splitOn_ne_nil separator rest)
        | cons head others => simp [isSeparator]

theorem pieces_of_not_mem
    {text : List Char} (single : separator ∉ text) :
    pieces separator text = [text] := by
  rw [pieces_eq_splitOn, List.splitOn_eq_singleton single]

/-- A separator between two texts parts their pieces. -/
theorem pieces_append_separator (first second : List Char) :
    pieces separator (first ++ separator :: second) =
      pieces separator first ++ pieces separator second := by
  simp only [pieces_eq_splitOn]
  exact List.splitOn_append_cons_self first second

theorem pieces_join
    {parts : List (List Char)} (notEmpty : parts ≠ [])
    (single : ∀ part ∈ parts, separator ∉ part) :
    pieces separator (join separator parts) = parts := by
  rw [pieces_eq_splitOn]
  exact List.splitOn_intercalate separator single notEmpty

theorem not_mem_of_mem_pieces
    {text piece : List Char} (member : piece ∈ pieces separator text) :
    separator ∉ piece := by
  induction text generalizing piece with
  | nil =>
      rw [pieces, List.mem_singleton] at member
      simp [member]
  | cons character rest inductionHypothesis =>
      rw [pieces] at member
      by_cases isSeparator : character = separator
      · rw [if_pos isSeparator, List.mem_cons] at member
        rcases member with rfl | inRest
        · exact List.not_mem_nil
        · exact inductionHypothesis inRest
      · rw [if_neg isSeparator] at member
        cases parts : pieces separator rest with
        | nil => exact absurd parts (pieces_ne_nil separator rest)
        | cons head others =>
            rw [parts] at member inductionHypothesis
            rcases List.mem_cons.1 member with rfl | inOthers
            · rw [List.mem_cons, not_or]
              exact ⟨Ne.symm isSeparator,
                inductionHypothesis List.mem_cons_self⟩
            · exact inductionHypothesis (List.mem_cons_of_mem _ inOthers)

theorem mem_join
    {parts : List (List Char)} {part : List Char} (member : part ∈ parts)
    {character : Char} (inside : character ∈ part) :
    character ∈ join separator parts := by
  induction parts with
  | nil => exact absurd member List.not_mem_nil
  | cons first rest inductionHypothesis =>
      cases rest with
      | nil =>
          rw [List.mem_singleton.1 member] at inside
          simpa [join] using inside
      | cons second more =>
          rw [join, List.intercalate_cons_cons, List.append_assoc]
          rcases List.mem_cons.1 member with rfl | inRest
          · exact List.mem_append_left _ inside
          · exact List.mem_append_right _
              (List.mem_append_right _ (inductionHypothesis inRest))

theorem eq_or_mem_of_mem_join
    {parts : List (List Char)} {character : Char}
    (member : character ∈ join separator parts) :
    character = separator ∨ ∃ part ∈ parts, character ∈ part := by
  induction parts with
  | nil => exact absurd member List.not_mem_nil
  | cons first rest inductionHypothesis =>
      cases rest with
      | nil =>
          refine Or.inr ⟨first, List.mem_cons_self, ?_⟩
          simpa [join] using member
      | cons second more =>
          rw [join, List.intercalate_cons_cons, List.append_assoc] at member
          rcases List.mem_append.1 member with inFirst | inRest
          · exact Or.inr ⟨first, List.mem_cons_self, inFirst⟩
          rcases List.mem_append.1 inRest with isSeparator | inOthers
          · exact Or.inl (List.mem_singleton.1 isSeparator)
          rcases inductionHypothesis inOthers with same | ⟨part, member, inside⟩
          · exact Or.inl same
          · exact Or.inr ⟨part, List.mem_cons_of_mem _ member, inside⟩

theorem mem_of_mem_pieces
    {text piece : List Char} (member : piece ∈ pieces separator text)
    {character : Char} (inside : character ∈ piece) : character ∈ text := by
  rw [← join_pieces separator text]
  exact mem_join member inside

theorem join_cons
    (first : List Char) {rest : List (List Char)} (notEmpty : rest ≠ []) :
    join separator (first :: rest) = first ++ separator :: join separator rest := by
  rw [join, List.intercalate_cons_of_ne_nil notEmpty, List.append_assoc]
  rfl

theorem join_append
    {first second : List (List Char)} (firstNotEmpty : first ≠ [])
    (secondNotEmpty : second ≠ []) :
    join separator (first ++ second) =
      join separator first ++ separator :: join separator second := by
  induction first with
  | nil => exact absurd rfl firstNotEmpty
  | cons head rest inductionHypothesis =>
      by_cases isLast : rest = []
      · rw [isLast, List.singleton_append, join_cons head secondNotEmpty]
        simp [join]
      · have others : rest ++ second ≠ [] := by simp [isLast]
        rw [List.cons_append, join_cons head others, inductionHypothesis isLast,
          join_cons head isLast, List.append_assoc, List.cons_append]

/-- A joined text starts as its first part. -/
theorem head?_join
    {first : List Char} (notEmpty : first ≠ []) (later : List (List Char)) :
    (join separator (first :: later)).head? = first.head? := by
  by_cases isLast : later = []
  · simp [isLast, join]
  · obtain ⟨character, rest, rfl⟩ := List.exists_cons_of_ne_nil notEmpty
    rw [join_cons _ isLast, List.cons_append, List.head?_cons, List.head?_cons]

/-- A joined text ends as its last part. -/
theorem getLast?_join
    (earlier : List (List Char)) {last : List Char} (notEmpty : last ≠ []) :
    (join separator (earlier ++ [last])).getLast? = last.getLast? := by
  by_cases isFirst : earlier = []
  · simp [isFirst, join]
  · rw [join_append isFirst (List.cons_ne_nil last []), List.getLast?_append]
    have isWhole : join separator [last] = last := by simp [join]
    obtain ⟨ending, isEnding⟩ := Option.ne_none_iff_exists'.1
      (mt List.getLast?_eq_none_iff.1 notEmpty)
    rw [isWhole, List.getLast?_cons, isEnding]
    rfl

/-- A text goes on in its last piece. -/
theorem pieces_append_piece (text : List Char) :
    ∃ earlier last, ∀ ending, separator ∉ ending →
      pieces separator (text ++ ending) = earlier ++ [last ++ ending] := by
  induction text with
  | nil => exact ⟨[], [], fun _ single => pieces_of_not_mem single⟩
  | cons first rest inductionHypothesis =>
      obtain ⟨earlier, last, goesOn⟩ := inductionHypothesis
      by_cases isSeparator : first = separator
      · refine ⟨[] :: earlier, last, fun ending single => ?_⟩
        rw [List.cons_append, pieces, if_pos isSeparator, goesOn ending single]
        rfl
      · cases earlier with
        | nil =>
            refine ⟨[], first :: last, fun ending single => ?_⟩
            rw [List.cons_append, pieces, if_neg isSeparator, goesOn ending single]
            rfl
        | cons head others =>
            refine ⟨(first :: head) :: others, last, fun ending single => ?_⟩
            rw [List.cons_append, pieces, if_neg isSeparator, goesOn ending single]
            rfl

/-- What stands in front of a text belongs to its first piece. -/
theorem pieces_piece_append (text : List Char) :
    ∃ first later, ∀ front, separator ∉ front →
      pieces separator (front ++ text) = (front ++ first) :: later := by
  cases parts : pieces separator text with
  | nil => exact absurd parts (pieces_ne_nil separator text)
  | cons first later =>
      refine ⟨first, later, fun front single => ?_⟩
      induction front with
      | nil => exact parts
      | cons head rest inductionHypothesis =>
          rw [List.mem_cons, not_or] at single
          rw [List.cons_append, pieces, if_neg (Ne.symm single.1),
            inductionHypothesis single.2]
          rfl

theorem length_pieces (text : List Char) :
    (pieces separator text).length = text.count separator + 1 := by
  induction text with
  | nil => rfl
  | cons first rest inductionHypothesis =>
      by_cases isSeparator : first = separator
      · rw [pieces, if_pos isSeparator, List.length_cons, inductionHypothesis,
          isSeparator, List.count_cons_self]
      · rw [pieces, if_neg isSeparator, List.count_cons_of_ne isSeparator,
          ← inductionHypothesis]
        cases parts : pieces separator rest with
        | nil => exact absurd parts (pieces_ne_nil separator rest)
        | cons head others => rfl

@[simp] theorem lines_nil : lines [] = [] := rfl

theorem dropReturn_of_not_mem
    {line : List Char} (noReturn : '\r' ∉ line) : dropReturn line = line := by
  rw [dropReturn, if_neg]
  intro last
  exact noReturn (List.mem_of_getLast? last)

@[simp] theorem dropReturn_append_return (line : List Char) :
    dropReturn (line ++ ['\r']) = line := by
  simp [dropReturn]

theorem endedLines_append
    (parts : List (List Char)) {rest : List (List Char)} (notEmpty : rest ≠ []) :
    endedLines (parts ++ rest) = parts.map dropReturn ++ endedLines rest := by
  induction parts with
  | nil => rfl
  | cons first others inductionHypothesis =>
      rw [List.map_cons, List.cons_append, List.cons_append,
        ← inductionHypothesis]
      cases following : others ++ rest with
      | nil => exact absurd (List.append_eq_nil_iff.1 following).2 notEmpty
      | cons second more => rfl

/-- All pieces in front of a line feed are lines. -/
theorem lines_append_feed (text rest : List Char) :
    lines (text ++ '\n' :: rest) =
      (pieces '\n' text).map dropReturn ++ lines rest := by
  rw [lines, pieces_append_separator,
    endedLines_append _ (pieces_ne_nil '\n' rest), lines]

/-- The text up to a line feed is a line of its own. -/
theorem lines_append_feed_of_not_mem
    {line : List Char} (single : '\n' ∉ line) (rest : List Char) :
    lines (line ++ '\n' :: rest) = dropReturn line :: lines rest := by
  rw [lines_append_feed, pieces_of_not_mem single]
  rfl

/-- What is read of the lines is read of the parts between line feeds, when an empty
line and a carriage return at an end count for nothing. -/
theorem filterMap_endedLines
    {alpha : Type} {read? : List Char → Option alpha} (nothing : read? [] = none)
    (same : ∀ line, read? (dropReturn line) = read? line) (parts : List (List Char)) :
    (endedLines parts).filterMap read? = parts.filterMap read? := by
  fun_induction endedLines parts with
  | case1 => rfl
  | case2 => simp [nothing]
  | case3 last notEmpty => rfl
  | case4 line rest notLast inductionHypothesis =>
      rw [List.filterMap_cons, List.filterMap_cons, same, inductionHypothesis]

/-- The text with a carriage return in front of every line feed. -/
def withReturns (text : List Char) : List Char :=
  text.flatMap fun character =>
    if character = '\n' then ['\r', '\n'] else [character]

theorem withReturns_of_not_mem
    {text : List Char} (single : '\n' ∉ text) : withReturns text = text := by
  induction text with
  | nil => rfl
  | cons first rest inductionHypothesis =>
      rw [List.mem_cons, not_or] at single
      rw [withReturns, List.flatMap_cons, ← withReturns,
        inductionHypothesis single.2, if_neg (Ne.symm single.1)]
      rfl

theorem withReturns_append_feed
    {line : List Char} (single : '\n' ∉ line) (rest : List Char) :
    withReturns (line ++ '\n' :: rest) =
      (line ++ ['\r']) ++ '\n' :: withReturns rest := by
  rw [withReturns, List.flatMap_append, ← withReturns,
    withReturns_of_not_mem single]
  simp [withReturns]

/-- Carriage returns in front of line feeds do not belong to lines. -/
theorem lines_withReturns
    {text : List Char} (noReturn : '\r' ∉ text) :
    lines (withReturns text) = lines text := by
  by_cases hasFeed : '\n' ∈ text
  · obtain ⟨line, rest, rfl, single⟩ := List.eq_append_cons_of_mem hasFeed
    simp only [List.mem_append, List.mem_cons, not_or] at noReturn
    rw [withReturns_append_feed single,
      lines_append_feed_of_not_mem (by simp [single]), dropReturn_append_return,
      lines_append_feed_of_not_mem single, dropReturn_of_not_mem noReturn.1,
      lines_withReturns noReturn.2.2]
  · rw [withReturns_of_not_mem hasFeed]
termination_by text.length

end LectureQuiz.Text
