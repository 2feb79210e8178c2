import LectureQuiz.Proofs.Text.Slug
import LectureQuiz.Text.Lowercase

/-!
# Slugs and runs of letters and digits

A text has one list of maximal runs of ASCII letters and digits. Its slug consists of
these runs in lower case with an underscore between neighbours, so two texts have the same
slug exactly if they have the same runs up to case.
-/

namespace LectureQuiz.Text

variable {text rest gap run : List Char} {runs : List (List Char)}

/-- The text has the maximal runs of letters and digits, in order. What stands in front of
a run and what follows it belongs to no run. -/
inductive HasRuns : List Char → List (List Char) → Prop
  | gap {gap : List Char} (noLetter : ∀ character ∈ gap, character.isAlphanum = false) :
      HasRuns gap []
  | run {gap run rest : List Char} {runs : List (List Char)}
      (noLetter : ∀ character ∈ gap, character.isAlphanum = false) (notEmpty : run ≠ [])
      (letters : ∀ character ∈ run, character.isAlphanum = true)
      (ends : ∀ character ∈ rest.head?, character.isAlphanum = false)
      (others : HasRuns rest runs) : HasRuns (gap ++ (run ++ rest)) (run :: runs)

/-- The parts between characters that are no letters or digits, without the empty ones. -/
def alphanumRuns (text : List Char) : List (List Char) :=
  (text.splitOnP (!·.isAlphanum)).filter (· ≠ [])

/-- A character that is no letter or digit parts the runs around it. -/
theorem alphanumRuns_append_cons
    {character : Char} (noLetter : character.isAlphanum = false) (front rest : List Char) :
    alphanumRuns (front ++ character :: rest) = alphanumRuns front ++ alphanumRuns rest := by
  rw [alphanumRuns, List.splitOnP_append_cons front rest (by simp [noLetter]),
    List.filter_append, ← alphanumRuns, ← alphanumRuns]

theorem alphanumRuns_gap_append
    (noLetter : ∀ character ∈ gap, character.isAlphanum = false) (rest : List Char) :
    alphanumRuns (gap ++ rest) = alphanumRuns rest := by
  induction gap with
  | nil => rfl
  | cons first others inductionHypothesis =>
      rw [List.forall_mem_cons] at noLetter
      have parted := alphanumRuns_append_cons noLetter.1 [] (others ++ rest)
      rw [List.nil_append] at parted
      rw [List.cons_append, parted, inductionHypothesis noLetter.2]
      rfl

theorem alphanumRuns_of_letters
    (notEmpty : run ≠ []) (letters : ∀ character ∈ run, character.isAlphanum = true) :
    alphanumRuns run = [run] := by
  have single : run.splitOnP (!·.isAlphanum) = [run] :=
    List.splitOnP_eq_singleton fun character member => by simp [letters character member]
  simp [alphanumRuns, single, notEmpty]

namespace HasRuns

theorem eq_alphanumRuns (has : HasRuns text runs) : runs = alphanumRuns text := by
  induction has with
  | gap noLetter =>
      have none := alphanumRuns_gap_append noLetter []
      rw [List.append_nil] at none
      exact none.symm
  | @run gap run rest runs noLetter notEmpty letters ends others inductionHypothesis =>
      rw [alphanumRuns_gap_append noLetter]
      cases rest with
      | nil =>
          rw [inductionHypothesis, List.append_nil, alphanumRuns_of_letters notEmpty letters]
          rfl
      | cons first later =>
          have parted := alphanumRuns_append_cons (ends first rfl)
          rw [parted, alphanumRuns_of_letters notEmpty letters, inductionHypothesis]
          have atStart := parted [] later
          rw [List.nil_append] at atStart
          rw [atStart]
          rfl

theorem gap_append
    (noLetter : ∀ character ∈ gap, character.isAlphanum = false) (has : HasRuns text runs) :
    HasRuns (gap ++ text) runs := by
  cases has with
  | gap noLetterThere => exact .gap (List.forall_mem_append.2 ⟨noLetter, noLetterThere⟩)
  | run noLetterThere notEmpty letters ends others =>
      rw [← List.append_assoc]
      exact .run (List.forall_mem_append.2 ⟨noLetter, noLetterThere⟩) notEmpty letters ends
        others

/-- A letter or digit in front of a text belongs to the run that the text starts with, or
is a run of its own. -/
theorem letter_cons
    {character : Char} (isLetter : character.isAlphanum = true) (has : HasRuns text runs) :
    ∃ more, HasRuns (character :: text) more := by
  have alone : ∀ letter ∈ [character], letter.isAlphanum = true :=
    List.forall_mem_singleton.2 isLetter
  have nothing : ∀ letter ∈ ([] : List Char), letter.isAlphanum = false :=
    List.forall_mem_nil _
  by_cases starts : ∀ first ∈ text.head?, first.isAlphanum = false
  · exact ⟨_, .run nothing (List.cons_ne_nil _ _) alone starts has⟩
  · cases has with
    | gap noLetter =>
        refine absurd ?_ starts
        intro first isFirst
        exact noLetter first (List.mem_of_mem_head? isFirst)
    | @run gap run rest runs noLetter notEmpty letters ends others =>
        cases gap with
        | nil =>
            have longer : ∀ letter ∈ character :: run, letter.isAlphanum = true :=
              List.forall_mem_cons.2 ⟨isLetter, letters⟩
            have whole := HasRuns.run nothing (List.cons_ne_nil _ _) longer ends others
            exact ⟨_, whole⟩
        | cons first others =>
            refine absurd ?_ starts
            intro head isHead
            obtain rfl : first = head := by simpa using isHead
            exact noLetter first List.mem_cons_self

theorem exists_runs (text : List Char) : ∃ runs, HasRuns text runs := by
  induction text with
  | nil => exact ⟨[], .gap (List.forall_mem_nil _)⟩
  | cons first rest inductionHypothesis =>
      obtain ⟨runs, has⟩ := inductionHypothesis
      by_cases isLetter : first.isAlphanum = true
      · exact has.letter_cons isLetter
      · have noLetter : ∀ character ∈ [first], character.isAlphanum = false :=
          List.forall_mem_singleton.2 (Bool.eq_false_iff.2 isLetter)
        exact ⟨runs, has.gap_append noLetter⟩

end HasRuns

/-- Every text has one list of runs. -/
theorem hasRuns_iff : HasRuns text runs ↔ runs = alphanumRuns text := by
  constructor
  · exact HasRuns.eq_alphanumRuns
  · rintro rfl
    obtain ⟨runs, has⟩ := HasRuns.exists_runs text
    rw [← has.eq_alphanumRuns]
    exact has

namespace HasRuns

theorem of_mem (has : HasRuns text runs) {part : List Char} (member : part ∈ runs) :
    part ≠ [] ∧ ∀ character ∈ part, character.isAlphanum = true := by
  induction has with
  | gap noLetter => exact absurd member List.not_mem_nil
  | run noLetter notEmpty letters ends others inductionHypothesis =>
      rcases List.mem_cons.1 member with rfl | inOthers
      · exact ⟨notEmpty, letters⟩
      · exact inductionHypothesis inOthers

theorem eq_nil_iff (has : HasRuns text runs) :
    runs = [] ↔ ∀ character ∈ text, character.isAlphanum = false := by
  cases has with
  | gap noLetter => exact iff_of_true rfl noLetter
  | @run gap run rest runs noLetter notEmpty letters ends others =>
      refine iff_of_false (List.cons_ne_nil _ _) ?_
      intro none
      obtain ⟨first, more, rfl⟩ := List.exists_cons_of_ne_nil notEmpty
      have isLetter := letters first List.mem_cons_self
      rw [none first (by simp)] at isLetter
      exact absurd isLetter nofun

theorem append_gap
    (noLetter : ∀ character ∈ gap, character.isAlphanum = false) (has : HasRuns text runs) :
    HasRuns (text ++ gap) runs := by
  induction has with
  | gap noLetterThere => exact .gap (List.forall_mem_append.2 ⟨noLetterThere, noLetter⟩)
  | @run front run rest runs noLetterThere notEmpty letters ends others inductionHypothesis =>
      rw [List.append_assoc, List.append_assoc]
      refine .run noLetterThere notEmpty letters ?_ inductionHypothesis
      intro character isHead
      cases rest with
      | nil => exact noLetter character (List.mem_of_mem_head? isHead)
      | cons first later => exact ends character isHead

end HasRuns

/-- Trimming takes no letters and digits away. -/
theorem alphanumRuns_trim (text : List Char) : alphanumRuns (trim text) = alphanumRuns text := by
  obtain ⟨before, after, whole, blankBefore, blankAfter⟩ := strip_decomposition isBlank text
  have noLetter {blanks : List Char} (blank : ∀ character ∈ blanks, isBlank character = true) :
      ∀ character ∈ blanks, character.isAlphanum = false := by
    intro character member
    rw [Bool.eq_false_iff]
    intro isLetter
    have notBlank := isBlank_of_isAlphanum isLetter
    rw [blank character member] at notBlank
    exact absurd notBlank nofun
  obtain ⟨runs, has⟩ := HasRuns.exists_runs (trim text)
  have hasWhole : HasRuns text runs := by
    rw [whole]
    exact (has.append_gap (noLetter blankAfter)).gap_append (noLetter blankBefore)
  rw [← has.eq_alphanumRuns, ← hasWhole.eq_alphanumRuns]

/-! ## Runs and underscores -/

theorem collapseRuns_letters_append
    (letters : ∀ character ∈ run, character.isAlphanum = true) (notEmpty : run ≠ [])
    (insideRun : Bool) (rest : List Char) :
    collapseRuns insideRun (run ++ rest) = run ++ collapseRuns false rest := by
  induction run generalizing insideRun with
  | nil => exact absurd rfl notEmpty
  | cons first others inductionHypothesis =>
      rw [List.forall_mem_cons] at letters
      rw [List.cons_append, collapseRuns, if_pos letters.1]
      by_cases isLast : others = []
      · rw [isLast]
        rfl
      · rw [inductionHypothesis letters.2 isLast]
        rfl

theorem collapseRuns_true_gap_append
    (noLetter : ∀ character ∈ gap, character.isAlphanum = false) (rest : List Char) :
    collapseRuns true (gap ++ rest) = collapseRuns true rest := by
  induction gap with
  | nil => rfl
  | cons first others inductionHypothesis =>
      rw [List.forall_mem_cons] at noLetter
      rw [List.cons_append, collapseRuns, if_neg (Bool.eq_false_iff.1 noLetter.1), if_pos rfl,
        inductionHypothesis noLetter.2]

/-- Behind a run one underscore is written, unless the text ends there. -/
theorem collapseRuns_false_of_gap
    (notEmpty : rest ≠ []) (starts : ∀ character ∈ rest.head?, character.isAlphanum = false) :
    collapseRuns false rest = '_' :: collapseRuns true rest := by
  obtain ⟨first, later, rfl⟩ := List.exists_cons_of_ne_nil notEmpty
  have noLetter := Bool.eq_false_iff.1 (starts first rfl)
  rw [collapseRuns, if_neg noLetter, if_neg Bool.false_ne_true, collapseRuns, if_neg noLetter,
    if_pos rfl]

/-- Collapsing joins the runs of a text, but for an underscore at the end. -/
theorem HasRuns.collapseRuns_true (has : HasRuns text runs) :
    ∃ after, collapseRuns true text = join '_' runs ++ after ∧
      ∀ character ∈ after, character = '_' := by
  induction has with
  | @gap gap noLetter =>
      have nothing := collapseRuns_true_gap_append noLetter []
      rw [List.append_nil] at nothing
      exact ⟨[], nothing, List.forall_mem_nil _⟩
  | @run gap run rest runs noLetter notEmpty letters ends others inductionHypothesis =>
      obtain ⟨after, collapsed, underscores⟩ := inductionHypothesis
      have alone : join '_' [run] = run := by simp [join]
      rw [collapseRuns_true_gap_append noLetter, collapseRuns_letters_append letters notEmpty]
      by_cases isLast : rest = []
      · obtain rfl : runs = [] := others.eq_nil_iff.2 (by simp [isLast])
        refine ⟨[], ?_, List.forall_mem_nil _⟩
        rw [isLast, alone]
        rfl
      rw [collapseRuns_false_of_gap isLast ends, collapsed]
      by_cases noMore : runs = []
      · refine ⟨'_' :: after, ?_, List.forall_mem_cons.2 ⟨rfl, underscores⟩⟩
        rw [noMore, alone]
        rfl
      · refine ⟨after, ?_, underscores⟩
        rw [join_cons run noMore, List.append_assoc]
        rfl

/-- An underscore in front is stripped, so it does not matter whether the text is taken to
continue a run. -/
theorem strip_collapseRuns (text : List Char) :
    strip (· == '_') (collapseRuns false text) =
      strip (· == '_') (collapseRuns true text) := by
  by_cases starts : text ≠ [] ∧ ∀ character ∈ text.head?, character.isAlphanum = false
  · rw [collapseRuns_false_of_gap starts.1 starts.2]
    have front : ∀ character ∈ ['_'], (character == '_') = true :=
      List.forall_mem_singleton.2 rfl
    have stripped := strip_of_all (collapseRuns true text) front (List.forall_mem_nil _)
    rw [List.append_nil] at stripped
    exact stripped
  · cases text with
    | nil => rfl
    | cons first rest =>
        have isLetter : first.isAlphanum = true := by simpa using starts
        rw [collapseRuns, if_pos isLetter, collapseRuns, if_pos isLetter]

theorem underscore_not_mem_run
    (letters : ∀ character ∈ run, character.isAlphanum = true) : '_' ∉ run :=
  fun member => absurd (letters '_' member) (by decide)

theorem HasRuns.strip_join (has : HasRuns text runs) :
    strip (· == '_') (join '_' runs) = join '_' runs := by
  by_cases nothing : runs = []
  · rw [nothing]
    rfl
  · apply strip_join_of_ends
    · exact fun part member => underscore_not_mem_run (has.of_mem member).2
    · obtain ⟨first, later, rfl⟩ := List.exists_cons_of_ne_nil nothing
      exact ⟨first, later, rfl, (has.of_mem List.mem_cons_self).1⟩
    · obtain ⟨earlier, last, rfl⟩ := (List.eq_nil_or_concat' runs).resolve_left nothing
      exact ⟨earlier, last, rfl, (has.of_mem List.mem_concat_self).1⟩

/-- The slug of a text before its letters are written in lower case. -/
theorem strip_collapseRuns_trim (text : List Char) :
    strip (· == '_') (collapseRuns false (trim text)) = join '_' (alphanumRuns text) := by
  have has : HasRuns (trim text) (alphanumRuns text) := by
    rw [hasRuns_iff, alphanumRuns_trim]
  obtain ⟨after, collapsed, underscores⟩ := has.collapseRuns_true
  have ending : ∀ character ∈ after, (character == '_') = true :=
    fun character member => beq_iff_eq.2 (underscores character member)
  have stripped := strip_of_all (join '_' (alphanumRuns text)) (List.forall_mem_nil _) ending
  rw [List.nil_append] at stripped
  rw [strip_collapseRuns, collapsed, stripped, has.strip_join]

/-- The runs of a text with their letters in lower case. -/
def lowerRuns (text : List Char) : List (List Char) :=
  (alphanumRuns text).map (·.map Char.toLower)

theorem map_join (parts : List (List Char)) :
    (join '_' parts).map Char.toLower = join '_' (parts.map (·.map Char.toLower)) := by
  induction parts with
  | nil => rfl
  | cons first rest inductionHypothesis =>
      by_cases isLast : rest = []
      · simp [isLast, join]
      · have others : rest.map (·.map Char.toLower) ≠ [] := by simpa using isLast
        rw [join_cons first isLast, List.map_append, List.map_cons, inductionHypothesis,
          List.map_cons, join_cons _ others]
        rfl

theorem slugChars_eq_join (text : List Char) :
    slugChars text = join '_' (lowerRuns text) := by
  rw [slugChars, strip_collapseRuns_trim, map_join, lowerRuns]

/-- In a text of ASCII characters every character is written in lower case on its own. -/
theorem lowercase_of_ascii (ascii : ∀ character ∈ text, character.toNat < 0x80) :
    lowercase text = text.map Char.toLower := by
  rw [lowercase]
  generalize [] = before
  induction text generalizing before with
  | nil => rfl
  | cons first rest inductionHypothesis =>
      rw [List.forall_mem_cons] at ascii
      have notSigma : first ≠ 'Σ' := by
        rintro rfl
        exact absurd ascii.1 (by decide)
      rw [lowercaseAfter, if_neg notSigma, lowercaseChar, if_pos ascii.1,
        inductionHypothesis ascii.2]
      rfl


theorem lowercase_join_alphanumRuns (text : List Char) :
    lowercase (join '_' (alphanumRuns text)) = join '_' (lowerRuns text) := by
  rw [lowerRuns, ← map_join]
  apply lowercase_of_ascii
  intro character member
  rcases eq_or_mem_of_mem_join member with rfl | ⟨run, isRun, inside⟩
  · decide
  · have isLetter := ((hasRuns_iff.2 rfl).of_mem isRun).2 character inside
    rw [isAlphanum_iff] at isLetter
    omega

theorem lowerRun_of_mem {part : List Char} (member : part ∈ lowerRuns text) :
    part ≠ [] ∧ '_' ∉ part := by
  obtain ⟨run, isRun, rfl⟩ := List.mem_map.1 member
  obtain ⟨notEmpty, letters⟩ := (hasRuns_iff.2 rfl).of_mem isRun
  refine ⟨by simpa using notEmpty, underscore_not_mem_run ?_⟩
  intro character inside
  obtain ⟨letter, isLetter, rfl⟩ := List.mem_map.1 inside
  exact isAlphanum_toLower.2 (letters letter isLetter)

theorem join_lowerRuns_eq_nil_iff :
    join '_' (lowerRuns text) = [] ↔ ∀ character ∈ text, character.isAlphanum = false := by
  rw [← (hasRuns_iff.2 rfl).eq_nil_iff]
  constructor
  · intro nothing
    rw [← List.map_eq_nil_iff, ← lowerRuns]
    cases runs : lowerRuns text with
    | nil => rfl
    | cons first rest =>
        have notEmpty : first ≠ [] := (lowerRun_of_mem (runs ▸ List.mem_cons_self)).1
        have starts := @head?_join '_' first notEmpty rest
        rw [← runs, nothing, List.head?_nil, eq_comm, List.head?_eq_none_iff] at starts
        exact absurd starts notEmpty
  · intro none
    rw [lowerRuns, none]
    rfl

/-- No run has an underscore in it, so the runs are found again in the joined text. -/
theorem join_lowerRuns_inj {other : List Char} :
    join '_' (lowerRuns text) = join '_' (lowerRuns other) ↔
      lowerRuns text = lowerRuns other := by
  have found (label : List Char) (notEmpty : lowerRuns label ≠ []) :
      pieces '_' (join '_' (lowerRuns label)) = lowerRuns label :=
    pieces_join notEmpty fun _ member => (lowerRun_of_mem member).2
  have isEmpty (label : List Char) :
      lowerRuns label = [] ↔ join '_' (lowerRuns label) = [] := by
    rw [join_lowerRuns_eq_nil_iff, ← (hasRuns_iff.2 rfl).eq_nil_iff, lowerRuns,
      List.map_eq_nil_iff]
  constructor
  · intro same
    by_cases nothing : lowerRuns text = []
    · rw [nothing, eq_comm, isEmpty, ← same, ← isEmpty]
      exact nothing
    · have something : lowerRuns other ≠ [] := by
        rw [Ne, isEmpty, ← same, ← isEmpty]
        exact nothing
      rw [← found text nothing, same, found other something]
  · intro same
    rw [same]

/-- Lower-case ASCII letters, digits and underscores, where no underscore stands at an end
or next to another one. -/
structure IsIdentifier (text : List Char) : Prop where
  characters : ∀ character ∈ text, ('a' ≤ character ∧ character ≤ 'z') ∨
    ('0' ≤ character ∧ character ≤ '9') ∨ character = '_'
  starts : text.head? ≠ some '_'
  ends : text.getLast? ≠ some '_'
  single : ¬['_', '_'] <:+: text

theorem IsSlug.isIdentifier (isSlug : IsSlug text) : IsIdentifier text where
  characters := by
    intro character member
    have code := toNat_toLower character
    rw [isSlug.lower character member] at code
    rcases isSlug.characters character member with isLetter | isUnderscore
    · rw [isAlphanum_iff] at isLetter
      have small : character.toNat < 65 ∨ 90 < character.toNat := by
        split at code <;> omega
      simp only [Char.le_def, UInt32.le_iff_toNat_le]
      change (97 ≤ character.toNat ∧ character.toNat ≤ 122) ∨
        (48 ≤ character.toNat ∧ character.toNat ≤ 57) ∨ _
      omega
    · exact Or.inr (Or.inr isUnderscore)
  starts := by
    rw [← isSlug.stripped]
    intro isHead
    exact absurd (head?_strip isHead) (by decide)
  ends := by
    rw [← isSlug.stripped]
    intro isLast
    exact absurd (getLast?_strip isLast) (by decide)
  single := by
    intro inside
    have apart := List.IsChain.infix isSlug.single inside
    exact absurd apart (by decide)

/-- A slug consists of the runs of letters and digits of its label in lower case, with an
underscore between neighbours. So it is an identifier, it is empty only if the label has no
run, it is its own slug, and labels with the same runs up to case have the same slug. -/
theorem slug_of_runs (label : String) :
    (∀ runs, HasRuns label.toList runs ↔ runs = alphanumRuns label.toList) ∧
    slug label = String.ofList (join '_' (lowerRuns label.toList)) ∧
    slug label = lowercased (String.ofList (join '_' (alphanumRuns label.toList))) ∧
    IsIdentifier (slug label).toList ∧
    (slug label = "" ↔ ∀ character ∈ label.toList, character.isAlphanum = false) ∧
    slug (slug label) = slug label ∧
    ∀ other, slug label = slug other ↔
      lowerRuns label.toList = lowerRuns other.toList := by
  have joined (text : String) : slug text = String.ofList (join '_' (lowerRuns text.toList)) := by
    rw [slug, slugChars_eq_join]
  refine ⟨fun runs => hasRuns_iff, joined label, ?_, ?_, ?_, slug_slug label, ?_⟩
  · rw [joined, lowercased, String.toList_ofList, lowercase_join_alphanumRuns]
  · rw [slug, String.toList_ofList]
    exact (isSlug_slugChars label.toList).isIdentifier
  · rw [joined, String.ofList_eq_empty_iff, join_lowerRuns_eq_nil_iff]
  · intro other
    rw [joined, joined, String.ofList_inj, join_lowerRuns_inj]

example : slug "  (Größe) Lec_07: __SETS" = "gr_e_lec_07_sets" := by decide +kernel

end LectureQuiz.Text
