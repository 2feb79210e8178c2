import Mathlib.Data.List.Infix
import LectureQuiz.Proofs.Text.Normalized

/-!
# Line breaks

A carriage return in front of a line feed is one break with it. `withFeeds` writes such
pairs as line feeds, as reading a text line by line does; unifying breaks then writes
the other returns as line feeds too. Two returns in front of a line feed leave a new
pair behind, so writing the pairs as line feeds once more changes the text exactly if
it has such a place, and then there is a break less.
-/

namespace LectureQuiz.Text

/-- The text with one line feed for each pair of a carriage return and a line feed. -/
def withFeeds : List Char → List Char
  | [] => []
  | '\r' :: '\n' :: rest => '\n' :: withFeeds rest
  | character :: rest => character :: withFeeds rest

def isBreak (character : Char) : Bool :=
  character == '\n' || character == '\r'

/-- A line feed for a carriage return. -/
def feedOf (character : Char) : Char :=
  if character = '\r' then '\n' else character

/-- Unifying breaks writes pairs as line feeds first, and then the other returns. -/
theorem unifyBreaks_eq_map (text : List Char) :
    unifyBreaks text = (withFeeds text).map feedOf := by
  fun_induction unifyBreaks text with
  | case1 => rfl
  | case2 rest inductionHypothesis =>
      rw [withFeeds, List.map_cons, inductionHypothesis]
      rfl
  | case3 rest notPair inductionHypothesis =>
      rw [withFeeds, List.map_cons, inductionHypothesis]
      · rfl
      · exact fun after _ same => notPair after same
  | case4 character rest _ notReturn inductionHypothesis =>
      rw [withFeeds, List.map_cons, inductionHypothesis, feedOf, if_neg]
      · exact notReturn
      · exact fun after isReturn => absurd isReturn notReturn

theorem withFeeds_cons
    {character : Char} {rest : List Char}
    (apart : character = '\r' → rest.head? ≠ some '\n') :
    withFeeds (character :: rest) = character :: withFeeds rest := by
  rw [withFeeds]
  rintro after isReturn rfl
  exact apart isReturn rfl

theorem withFeeds_append
    {first second : List Char}
    (apart : first.getLast? = some '\r' → second.head? ≠ some '\n') :
    withFeeds (first ++ second) = withFeeds first ++ withFeeds second := by
  fun_induction withFeeds first with
  | case1 => rfl
  | case2 rest inductionHypothesis =>
      rw [List.cons_append, List.cons_append, withFeeds, inductionHypothesis,
        List.cons_append]
      intro ends
      exact apart (by simp [List.getLast?_cons, ends])
  | case3 character rest notPair inductionHypothesis =>
      rw [List.cons_append, withFeeds_cons, inductionHypothesis, List.cons_append]
      · intro ends
        exact apart (by simp [List.getLast?_cons, ends])
      · rintro rfl
        cases rest with
        | nil => exact apart rfl
        | cons next more =>
            rw [List.cons_append, List.head?_cons, Ne, Option.some.injEq]
            rintro rfl
            exact notPair more rfl rfl

theorem withFeeds_append_pair (first rest : List Char) :
    withFeeds (first ++ '\r' :: '\n' :: rest) =
      withFeeds first ++ '\n' :: withFeeds rest := by
  rw [withFeeds_append (fun _ => by simp), withFeeds]

theorem withFeeds_of_not_mem
    {text : List Char} (single : '\n' ∉ text) : withFeeds text = text := by
  induction text with
  | nil => rfl
  | cons first rest inductionHypothesis =>
      rw [List.mem_cons, not_or] at single
      rw [withFeeds_cons, inductionHypothesis single.2]
      exact fun _ isHead => single.2 (List.mem_of_mem_head? isHead)

theorem withFeeds_sublist (text : List Char) : (withFeeds text).Sublist text := by
  fun_induction withFeeds text with
  | case1 => exact .slnil
  | case2 rest inductionHypothesis => exact .cons _ (.cons_cons _ inductionHypothesis)
  | case3 character rest _ inductionHypothesis => exact .cons_cons _ inductionHypothesis

theorem getLast?_withFeeds (text : List Char) :
    (withFeeds text).getLast? = text.getLast? := by
  fun_induction withFeeds text with
  | case1 => rfl
  | case2 rest inductionHypothesis =>
      simp [List.getLast?_cons, inductionHypothesis]
  | case3 character rest _ inductionHypothesis =>
      rw [List.getLast?_cons, List.getLast?_cons, inductionHypothesis]

/-- The breaks of a text are its line feeds once they are unified. -/
theorem count_unifyBreaks (text : List Char) :
    (unifyBreaks text).count '\n' = (withFeeds text).countP isBreak := by
  rw [unifyBreaks_eq_map, List.count, List.countP_map]
  congr 1
  funext character
  by_cases isReturn : character = '\r'
  · simp [feedOf, isBreak, isReturn]
  · simp [feedOf, isBreak, isReturn]

theorem withFeeds_of_no_pair
    {text : List Char} (noPair : ¬['\r', '\n'] <:+: text) : withFeeds text = text := by
  induction text with
  | nil => rfl
  | cons first rest inductionHypothesis =>
      rw [List.infix_cons_iff, not_or] at noPair
      rw [withFeeds_cons, inductionHypothesis noPair.2]
      rintro rfl isHead
      obtain ⟨more, rfl⟩ := List.head?_eq_some_iff.1 isHead
      exact noPair.1 ⟨more, rfl⟩

theorem countP_withFeeds_lt
    {text : List Char} (pair : ['\r', '\n'] <:+: text) :
    (withFeeds text).countP isBreak < text.countP isBreak := by
  obtain ⟨before, after, rfl⟩ := pair
  have fewerBefore : (withFeeds before).countP isBreak ≤ before.countP isBreak :=
    (withFeeds_sublist before).countP_le
  have fewerAfter : (withFeeds after).countP isBreak ≤ after.countP isBreak :=
    (withFeeds_sublist after).countP_le
  have feed : isBreak '\n' = true := rfl
  have carriageReturn : isBreak '\r' = true := rfl
  rw [List.append_assoc, List.cons_append, List.cons_append, List.nil_append,
    withFeeds_append_pair]
  simp only [List.countP_append, List.countP_cons, feed, carriageReturn, if_true]
  omega

/-- Pairs are left where two returns stood in front of a line feed. -/
theorem pair_in_withFeeds_iff {text : List Char} :
    ['\r', '\n'] <:+: withFeeds text ↔ ['\r', '\r', '\n'] <:+: text := by
  constructor
  · intro pair
    fun_induction withFeeds text with
    | case1 => exact absurd (List.infix_nil.1 pair) nofun
    | case2 rest inductionHypothesis =>
        rcases List.infix_cons_iff.1 pair with atStart | inRest
        · exact absurd (List.cons_prefix_cons.1 atStart).1 (by decide)
        · have inText := inductionHypothesis inRest
          exact inText.trans ⟨['\r', '\n'], [], by simp⟩
    | case3 character rest notPair inductionHypothesis =>
        rcases List.infix_cons_iff.1 pair with atStart | inRest
        · obtain ⟨rfl, feedFirst⟩ := List.cons_prefix_cons.1 atStart
          -- The line feed is the first of `rest`, or was paired there.
          fun_cases withFeeds rest with
          | case1 => exact absurd (List.prefix_nil.1 feedFirst) nofun
          | case2 more => exact ⟨[], more, rfl⟩
          | case3 next more startsNoPair =>
              rw [withFeeds] at feedFirst
              · obtain ⟨rfl, _⟩ := List.cons_prefix_cons.1 feedFirst
                exact absurd rfl (notPair more rfl)
              · exact startsNoPair
        · exact (inductionHypothesis inRest).trans (List.suffix_cons character rest).isInfix
  · rintro ⟨before, after, rfl⟩
    refine ⟨withFeeds before, withFeeds after, ?_⟩
    rw [List.append_assoc, List.append_assoc, withFeeds_append (fun _ => by simp)]
    rfl

theorem withFeeds_append_feed
    {line : List Char} (single : '\n' ∉ line) (rest : List Char) :
    withFeeds (line ++ '\n' :: rest) = dropReturn line ++ '\n' :: withFeeds rest := by
  by_cases ends : line.getLast? = some '\r'
  · obtain ⟨start, rfl⟩ := List.getLast?_eq_some_iff.1 ends
    have startSingle : '\n' ∉ start := fun inside => single (List.mem_append_left _ inside)
    rw [List.append_assoc, List.singleton_append, withFeeds_append_pair,
      withFeeds_of_not_mem startSingle, dropReturn_append_return]
  · rw [withFeeds_append (fun isReturn => absurd isReturn ends), dropReturn, if_neg ends,
      withFeeds_of_not_mem single, withFeeds_cons (fun isReturn => absurd isReturn (by decide))]

theorem lines_ne_nil {text : List Char} (notEmpty : text ≠ []) : lines text ≠ [] := by
  rw [lines]
  cases parts : pieces '\n' text with
  | nil => exact absurd parts (pieces_ne_nil '\n' text)
  | cons first others =>
      cases others with
      | nil =>
          have whole := join_pieces '\n' text
          rw [parts] at whole
          have same : first = text := by simpa [join] using whole
          rw [endedLines, if_neg (same ▸ notEmpty)]
          exact List.cons_ne_nil first []
      | cons second more => exact List.cons_ne_nil _ _

/-- The lines of a text make up the text with line feeds, but for a line feed at its
end. -/
theorem joinLines_lines (text : List Char) :
    joinLines (lines text) = withFeeds text ∨
      joinLines (lines text) ++ ['\n'] = withFeeds text := by
  by_cases hasFeed : '\n' ∈ text
  · obtain ⟨line, rest, rfl, single⟩ := List.eq_append_cons_of_mem hasFeed
    rw [lines_append_feed_of_not_mem single, withFeeds_append_feed single]
    by_cases isLast : rest = []
    · rw [isLast]
      exact Or.inr (by simp [joinLines, join, withFeeds])
    · rw [joinLines, join_cons _ (lines_ne_nil isLast), ← joinLines]
      rcases joinLines_lines rest with same | same
      · exact Or.inl (by simp [same])
      · exact Or.inr (by simp [← same])
  · rw [withFeeds_of_not_mem hasFeed, lines, pieces_of_not_mem hasFeed, endedLines]
    by_cases isEmpty : text = []
    · rw [if_pos isEmpty, isEmpty]
      exact Or.inl rfl
    · rw [if_neg isEmpty]
      exact Or.inl (by simp [joinLines, join])
termination_by text.length

end LectureQuiz.Text
