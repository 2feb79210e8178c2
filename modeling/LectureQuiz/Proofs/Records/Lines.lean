import LectureQuiz.Proofs.Text.Normalized
import LectureQuiz.Records

namespace LectureQuiz

open LectureQuiz.Text

namespace Records

variable {alpha : Type} [Record alpha]

omit [Record alpha] in
/-- The records of two texts, one after the other. -/
def append (first second : Records alpha) : Records alpha :=
  ⟨first.records ++ second.records, first.skipped + second.skipped⟩

instance : Append (Records alpha) := ⟨append⟩

/-- What a line adds to the records of a text. -/
def ofLine (line : List Char) : Records alpha :=
  if trim line = [] then ⟨[], 0⟩
  else
    match decodeLine? alpha (trim line) with
    | some record => ⟨[record], 0⟩
    | none => ⟨[], 1⟩

/-- Empty lines and carriage returns at the ends of lines do not count, so the lines may be
taken to be the parts between line feeds. -/
theorem contentLines_eq_pieces (content : String) :
    contentLines content = ((pieces '\n' content.toList).map trim).filter (· ≠ []) := by
  have asRead (parts : List (List Char)) : (parts.map trim).filter (· ≠ []) =
      parts.filterMap fun line => if trim line = [] then none else some (trim line) := by
    induction parts with
    | nil => rfl
    | cons first rest inductionHypothesis =>
        rw [List.map_cons, List.filter_cons, List.filterMap_cons, inductionHypothesis]
        by_cases isEmpty : trim first = [] <;> simp [isEmpty]
  rw [contentLines, asRead, asRead, lines]
  apply filterMap_endedLines
  · rfl
  · intro line
    rw [trim_dropReturn]

theorem contentLines_append_feed (first second : List Char) :
    contentLines (String.ofList (first ++ '\n' :: second)) =
      contentLines (String.ofList first) ++ contentLines (String.ofList second) := by
  simp only [contentLines_eq_pieces, String.toList_ofList]
  rw [pieces_append_separator, List.map_append, List.filter_append]

theorem contentLines_append_return (text : List Char) :
    contentLines (String.ofList (text ++ ['\r'])) = contentLines (String.ofList text) := by
  obtain ⟨earlier, last, goesOn⟩ := @pieces_append_piece '\n' text
  have whole := goesOn ['\r'] (by decide)
  have alone := goesOn [] List.not_mem_nil
  rw [List.append_nil, List.append_nil] at alone
  have sameTrim : trim (last ++ ['\r']) = trim last := by
    rw [← trim_dropReturn, dropReturn_append_return]
  simp only [contentLines_eq_pieces, String.toList_ofList]
  rw [whole, alone, List.map_append, List.map_append, List.map_singleton, sameTrim,
    List.map_singleton]

theorem contentLines_of_line {line : List Char} (single : '\n' ∉ line) :
    contentLines (String.ofList line) = if trim line = [] then [] else [trim line] := by
  rw [contentLines_eq_pieces, String.toList_ofList, pieces_of_not_mem single]
  by_cases isEmpty : trim line = [] <;> simp [isEmpty]

/-- No line goes on behind the text. -/
def EndsLine (text : List Char) : Prop :=
  text = [] ∨ text.getLast? = some '\n'

/-- No line goes on in the text. -/
def StartsWithBreak (text : List Char) : Prop :=
  text = [] ∨ text.head? = some '\n' ∨ ['\r', '\n'] <+: text

theorem contentLines_append_of_endsLine
    {first : List Char} (ends : EndsLine first) (second : List Char) :
    contentLines (String.ofList (first ++ second)) =
      contentLines (String.ofList first) ++ contentLines (String.ofList second) := by
  rcases ends with rfl | ends
  · rfl
  · obtain ⟨line, rfl⟩ := List.getLast?_eq_some_iff.1 ends
    rw [List.append_assoc, List.singleton_append, contentLines_append_feed,
      contentLines_append_feed]
    change _ = _ ++ [] ++ _
    rw [List.append_nil]

theorem contentLines_append_of_startsWithBreak
    (first : List Char) {second : List Char} (starts : StartsWithBreak second) :
    contentLines (String.ofList (first ++ second)) =
      contentLines (String.ofList first) ++ contentLines (String.ofList second) := by
  rcases starts with rfl | starts | starts
  · change _ = _ ++ []
    rw [List.append_nil, List.append_nil]
  · obtain ⟨rest, rfl⟩ := List.head?_eq_some_iff.1 starts
    have later := contentLines_append_feed [] rest
    rw [List.nil_append] at later
    rw [contentLines_append_feed, later]
    rfl
  · obtain ⟨rest, rfl⟩ := starts
    have earlier := contentLines_append_feed (first ++ ['\r']) rest
    have later := contentLines_append_feed ['\r'] rest
    have alone : contentLines (String.ofList ['\r']) = [] := by
      rw [contentLines_of_line (by decide), if_pos (by decide)]
    rw [contentLines_append_return, List.append_assoc, List.singleton_append] at earlier
    rw [alone, List.nil_append, List.singleton_append] at later
    rw [List.cons_append, List.singleton_append, earlier, later]

/-- A text that is cut between two lines has the lines of both parts. -/
theorem contentLines_append
    {first second : String}
    (between : EndsLine first.toList ∨ StartsWithBreak second.toList) :
    contentLines (first ++ second) = contentLines first ++ contentLines second := by
  have whole : first ++ second = String.ofList (first.toList ++ second.toList) :=
    String.toList_inj.1 (by simp)
  rw [whole]
  rcases between with ends | starts
  · rw [contentLines_append_of_endsLine ends, String.ofList_toList, String.ofList_toList]
  · rw [contentLines_append_of_startsWithBreak _ starts, String.ofList_toList,
      String.ofList_toList]

/-- The line break at a cut counts for nothing. -/
theorem contentLines_append_break
    {ending : String} (isBreak : ending = "\n" ∨ ending = "\r\n") (first second : String) :
    contentLines (first ++ ending ++ second) =
      contentLines first ++ contentLines second := by
  have ends : EndsLine (first ++ ending).toList := by
    rcases isBreak with rfl | rfl <;> exact Or.inr (by simp)
  have starts : StartsWithBreak ending.toList := by
    rcases isBreak with rfl | rfl
    · exact Or.inr (Or.inl rfl)
    · exact Or.inr (Or.inr List.prefix_rfl)
  have nothing : contentLines ending = [] := by
    rcases isBreak with rfl | rfl <;> decide
  rw [contentLines_append (Or.inl ends), contentLines_append (Or.inr starts), nothing,
    List.append_nil]

theorem parse_eq_append
    {whole first second : String}
    (contents : contentLines whole = contentLines first ++ contentLines second) :
    (parse whole : Records alpha) = parse first ++ parse second := by
  simp only [parse, contents, List.map_append, List.filterMap_append, List.countP_append]
  rfl

theorem parse_of_line {line : List Char} (single : '\n' ∉ line) :
    (parse (String.ofList line) : Records alpha) = ofLine line := by
  rw [parse, contentLines_of_line single, ofLine]
  by_cases isEmpty : trim line = []
  · rw [if_pos isEmpty, if_pos isEmpty]
    rfl
  · rw [if_neg isEmpty, if_neg isEmpty]
    cases decoded : decodeLine? alpha (trim line) with
    | none => simp [decoded]
    | some record => simp [decoded]

theorem length_records_add_skipped (content : String) :
    (parse content : Records alpha).records.length + (parse content : Records alpha).skipped =
      (contentLines content).length := by
  rw [parse]
  dsimp only
  induction contentLines content with
  | nil => rfl
  | cons line rest inductionHypothesis =>
      rw [List.map_cons, List.filterMap_cons, List.countP_cons, List.length_cons,
        ← inductionHypothesis]
      cases decodeLine? alpha line with
      | none => simp [Nat.add_assoc]
      | some record => simp [Nat.add_right_comm]

end Records

end LectureQuiz
