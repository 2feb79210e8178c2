import LectureQuiz.Proofs.Text.Normalized
import LectureQuiz.Span

/-!
# Spans are the runs between stamps

By its stamps a body has one span for every maximal run of lines without a stamp
that is not blank. The lines at both sides of the run, if any, give its times.
-/

namespace LectureQuiz

open LectureQuiz.Text

/-- Consecutive lines of a body, with the lines around them. -/
structure Run where
  before : List (List Char)
  inside : List (List Char)
  after : List (List Char)

/-- Whether some lines of a body are a maximal run of lines without a stamp. -/
structure IsRun (all : List (List Char)) (run : Run) : Prop where
  whole : run.before ++ run.inside ++ run.after = all
  notEmpty : run.inside ≠ []
  plain : ∀ line ∈ run.inside, stampOf? line = none
  stampedBefore : ∀ line ∈ run.before.getLast?, stampOf? line ≠ none
  stampedAfter : ∀ line ∈ run.after.head?, stampOf? line ≠ none

namespace Run

/-- The span of a run: the stamps right before and right after it, and its lines
joined and trimmed. -/
def span (run : Run) : Span where
  start := run.before.getLast?.bind stampOf?
  finish := run.after.head?.bind stampOf?
  text := String.ofList (trim (joinLines run.inside))

/-- Whether a run is not blank. -/
def isSpoken (run : Run) : Bool :=
  !(joinLines run.inside).all isBlank

/-- Whether a run ends in front of another one. -/
def Precedes (first second : Run) : Prop :=
  first.before.length + first.inside.length < second.before.length

/-- The run that ends where the lines after it begin, if it has any lines. -/
def closed (before pending after : List (List Char)) : List Run :=
  if pending = [] then [] else [⟨before, pending, after⟩]

/-- The runs of a body in order, from a place inside it: some lines are behind, and
the lines without a stamp in front of the place are pending. -/
def collect (before pending : List (List Char)) :
    List (List Char) → List Run
  | [] => closed before pending []
  | line :: rest =>
      if stampOf? line = none then
        collect before (pending ++ [line]) rest
      else
        closed before pending (line :: rest) ++
          collect (before ++ pending ++ [line]) [] rest

variable {all before pending after rest : List (List Char)} {run : Run}

theorem mem_closed_iff :
    run ∈ closed before pending after ↔
      pending ≠ [] ∧ run = ⟨before, pending, after⟩ := by
  rw [closed]
  split <;> simp_all

/-- What holds at every place inside a body: the pending lines have no stamp, and
they start the body or stand right after a stamp. -/
structure IsPlace (all before pending rest : List (List Char)) : Prop where
  whole : before ++ pending ++ rest = all
  plain : ∀ line ∈ pending, stampOf? line = none
  stampedBefore : ∀ line ∈ before.getLast?, stampOf? line ≠ none

theorem IsPlace.start (all : List (List Char)) : IsPlace all [] [] all :=
  ⟨rfl, by simp, by simp⟩

theorem IsPlace.plain_cons
    {line : List Char} (place : IsPlace all before pending (line :: rest))
    (plain : stampOf? line = none) :
    IsPlace all before (pending ++ [line]) rest := by
  refine ⟨?_, ?_, place.stampedBefore⟩
  · rw [← place.whole]
    simp only [List.append_assoc, List.singleton_append]
  · intro other member
    rcases List.mem_append.1 member with isPending | isLine
    · exact place.plain other isPending
    · rw [List.mem_singleton.1 isLine, plain]

theorem IsPlace.stamped_cons
    {line : List Char} (place : IsPlace all before pending (line :: rest))
    (stamped : stampOf? line ≠ none) :
    IsPlace all (before ++ pending ++ [line]) [] rest := by
  refine ⟨?_, by simp, ?_⟩
  · rw [← place.whole]
    simp only [List.append_assoc, List.singleton_append]
  · intro other isLast
    rw [List.getLast?_concat, Option.mem_some_iff] at isLast
    exact isLast ▸ stamped

theorem IsPlace.isRun_closed
    (place : IsPlace all before pending rest)
    (stampedAfter : ∀ line ∈ rest.head?, stampOf? line ≠ none)
    (member : run ∈ closed before pending rest) : IsRun all run := by
  obtain ⟨notEmpty, rfl⟩ := mem_closed_iff.1 member
  exact ⟨place.whole, notEmpty, place.plain, place.stampedBefore, stampedAfter⟩

theorem isRun_of_mem_collect
    (place : IsPlace all before pending rest)
    (member : run ∈ collect before pending rest) : IsRun all run := by
  induction rest generalizing before pending with
  | nil => exact place.isRun_closed (by simp) member
  | cons line rest inductionHypothesis =>
      rw [collect] at member
      split at member
      · rename_i plain
        exact inductionHypothesis (place.plain_cons plain) member
      · rename_i stamped
        rcases List.mem_append.1 member with isClosed | later
        · exact place.isRun_closed (by simpa using stamped) isClosed
        · exact inductionHypothesis (place.stamped_cons stamped) later

theorem collect_append_of_plain
    {lines : List (List Char)}
    (plain : ∀ line ∈ lines, stampOf? line = none) :
    collect before pending (lines ++ rest) =
      collect before (pending ++ lines) rest := by
  induction lines generalizing pending with
  | nil => rw [List.nil_append, List.append_nil]
  | cons line others inductionHypothesis =>
      rw [List.forall_mem_cons] at plain
      rw [List.cons_append, collect, if_pos plain.1,
        inductionHypothesis plain.2, List.append_assoc,
        List.singleton_append]

/-- Right after a stamp nothing is pending, whatever was collected before. -/
theorem collect_after_stamp
    (before pending passed rest : List (List Char)) {line : List Char}
    (stamped : stampOf? line ≠ none) :
    ∃ earlier, collect before pending (passed ++ line :: rest) =
      earlier ++ collect (before ++ pending ++ passed ++ [line]) [] rest := by
  induction passed generalizing before pending with
  | nil =>
      rw [List.nil_append, List.append_nil, collect, if_neg stamped]
      exact ⟨_, rfl⟩
  | cons first passed inductionHypothesis =>
      rw [List.cons_append, collect]
      split
      · obtain ⟨earlier, collected⟩ :=
          inductionHypothesis before (pending ++ [first])
        refine ⟨earlier, ?_⟩
        simpa only [List.append_assoc, List.singleton_append] using collected
      · obtain ⟨earlier, collected⟩ :=
          inductionHypothesis (before ++ pending ++ [first]) []
        refine ⟨closed before pending (first :: (passed ++ line :: rest)) ++
          earlier, ?_⟩
        rw [collected]
        simp only [List.append_assoc, List.singleton_append]

theorem mem_collect_of_isRun
    (isRun : IsRun all run) : run ∈ collect [] [] all := by
  obtain ⟨before, lines, after⟩ := run
  obtain ⟨rfl, notEmpty, plain, stampedBefore, stampedAfter⟩ := isRun
  dsimp only at notEmpty plain stampedBefore stampedAfter ⊢
  have fromRun : ⟨before, lines, after⟩ ∈ collect before [] (lines ++ after) := by
    rw [collect_append_of_plain plain, List.nil_append]
    have isClosed : ⟨before, lines, after⟩ ∈ closed before lines after :=
      mem_closed_iff.2 ⟨notEmpty, rfl⟩
    cases after with
    | nil => exact isClosed
    | cons line rest =>
        rw [collect, if_neg (stampedAfter line rfl)]
        exact List.mem_append_left _ isClosed
  rcases List.eq_nil_or_concat' before with rfl | ⟨passed, line, rfl⟩
  · rw [List.nil_append]
    exact fromRun
  · have stamped : stampOf? line ≠ none :=
      stampedBefore line (by rw [List.getLast?_concat]; rfl)
    obtain ⟨earlier, collected⟩ :=
      collect_after_stamp [] [] passed (lines ++ after) stamped
    rw [List.append_assoc, List.append_assoc, List.singleton_append,
      collected]
    exact List.mem_append_right _ fromRun

theorem mem_collect_iff : run ∈ collect [] [] all ↔ IsRun all run :=
  ⟨isRun_of_mem_collect (IsPlace.start all), mem_collect_of_isRun⟩

theorem length_le_of_mem_collect
    (member : run ∈ collect before pending rest) :
    before.length ≤ run.before.length := by
  induction rest generalizing before pending with
  | nil =>
      obtain ⟨_, rfl⟩ := mem_closed_iff.1 member
      exact le_rfl
  | cons line rest inductionHypothesis =>
      rw [collect] at member
      split at member
      · exact inductionHypothesis member
      · rcases List.mem_append.1 member with isClosed | later
        · obtain ⟨_, rfl⟩ := mem_closed_iff.1 isClosed
          exact le_rfl
        · have bound := inductionHypothesis later
          simp only [List.length_append] at bound
          omega

theorem pairwise_collect (before pending rest : List (List Char)) :
    (collect before pending rest).Pairwise Precedes := by
  induction rest generalizing before pending with
  | nil =>
      rw [collect, closed]
      split <;> simp
  | cons line rest inductionHypothesis =>
      rw [collect]
      split
      · exact inductionHypothesis _ _
      · refine List.pairwise_append.2 ⟨?_, inductionHypothesis _ _, ?_⟩
        · rw [closed]
          split <;> simp
        · intro first isClosed second later
          obtain ⟨_, rfl⟩ := mem_closed_iff.1 isClosed
          have bound := length_le_of_mem_collect later
          simp only [List.length_append, List.length_singleton] at bound
          rw [Precedes]
          dsimp only
          omega

/-! ## Spans of sections are spans of runs -/

/-- A section gives the span of the run that its lines are, if they are not
blank. -/
theorem spans_cons_closed
    (before pending after : List (List Char)) {sections : List Section}
    (finish : sections.head?.bind Section.start = after.head?.bind stampOf?) :
    Section.spans (⟨before.getLast?.bind stampOf?, pending⟩ :: sections) =
      ((closed before pending after).filter
        isSpoken).map span ++
      Section.spans sections := by
  have textNil : trim (joinLines pending) = [] ↔
      (joinLines pending).all isBlank = true := by
    rw [trim, strip_eq_nil_iff, List.all_eq_true]
  rw [Section.spans, Section.text, closed, finish]
  by_cases blank : (joinLines pending).all isBlank = true
  · rw [if_pos (textNil.2 blank)]
    split <;> simp [isSpoken, blank]
  · have notEmpty : pending ≠ [] := by
      rintro rfl
      exact blank rfl
    rw [if_neg (blank ∘ textNil.1), if_neg notEmpty]
    simp [isSpoken, blank, span]

theorem spans_collect (before pending rest : List (List Char)) :
    Section.spans
        (⟨before.getLast?.bind stampOf?, pending ++ (Section.gather rest).1⟩ ::
          (Section.gather rest).2) =
      ((collect before pending rest).filter
        isSpoken).map span := by
  induction rest generalizing before pending with
  | nil =>
      rw [Section.gather, List.append_nil, collect,
        spans_cons_closed before pending [] rfl, Section.spans,
        List.append_nil]
  | cons line rest inductionHypothesis =>
      rw [Section.gather, collect]
      cases stamp : stampOf? line with
      | none =>
          have later := inductionHypothesis before (pending ++ [line])
          simpa only [List.append_assoc, List.singleton_append, if_true] using later
      | some time =>
          have later := inductionHypothesis (before ++ pending ++ [line]) []
          rw [List.getLast?_concat, Option.bind_some, stamp,
            List.nil_append] at later
          rw [if_neg (by simp), List.filter_append, List.map_append, ← later,
            ← spans_cons_closed]
          · rw [List.append_nil]
          · rw [List.head?_cons, Option.bind_some, List.head?_cons,
              Option.bind_some, stamp]

/-- The runs of a body that are not blank, in order. -/
def spoken (body : String) : List Run :=
  (collect [] [] (lines body.toList)).filter isSpoken

theorem stampedSpans_eq_spoken (body : String) :
    stampedSpans body = (spoken body).map span := by
  have collected := spans_collect [] [] (lines body.toList)
  rw [spoken, ← collected, stampedSpans, Section.ofLines]
  dsimp only [List.getLast?_nil, Option.bind_none, List.nil_append]
  split
  · rename_i noLeading
    rw [noLeading, Section.spans]
    exact (if_pos rfl).symm
  · rfl

theorem pairwise_spoken (body : String) :
    (spoken body).Pairwise Precedes :=
  (pairwise_collect _ _ _).filter _

theorem isRun_of_mem_spoken
    {body : String} (member : run ∈ spoken body) :
    IsRun (lines body.toList) run :=
  mem_collect_iff.1 (List.mem_filter.1 member).1

/-- A run behind another one starts after a stamp. -/
theorem start_ne_none
    {first : Run} (isRun : IsRun all run) (precedes : first.Precedes run) :
    run.span.start ≠ none := by
  rcases List.eq_nil_or_concat' run.before with nothing | ⟨passed, line, whole⟩
  · rw [Precedes, nothing, List.length_nil] at precedes
    omega
  · have isLast : run.before.getLast? = some line := by
      rw [whole, List.getLast?_concat]
    rw [span, isLast]
    exact isRun.stampedBefore line isLast

/-- A run in front of another one ends at a stamp. -/
theorem finish_ne_none
    {second : Run} (isRun : IsRun all run) (alsoRun : IsRun all second)
    (precedes : run.Precedes second) : run.span.finish ≠ none := by
  cases afterEq : run.after with
  | nil =>
      have whole := congrArg List.length (isRun.whole.trans alsoRun.whole.symm)
      simp only [List.length_append, afterEq, List.length_nil] at whole
      rw [Precedes] at precedes
      omega
  | cons line rest =>
      rw [span, afterEq]
      exact isRun.stampedAfter line (by rw [afterEq]; rfl)

end Run

/-- By its stamps a body has exactly the spans of its maximal runs without a stamp
that are not blank, in the order of the runs. Only the first span can lack a
start, and only the last one an end. -/
theorem spans_of_runs (bounds : Window.Bounds) (body : String) :
    ∃ runs : List Run,
      runs.Pairwise Run.Precedes ∧
      (∀ run, run ∈ runs ↔
        IsRun (lines body.toList) run ∧
          ∃ character ∈ joinLines run.inside, isBlank character = false) ∧
      spans? bounds .timestamped body = some (runs.map Run.span) ∧
      (∀ span ∈ (runs.map Run.span).tail, span.start ≠ none) ∧
      ∀ span ∈ (runs.map Run.span).dropLast, span.finish ≠ none := by
  have ordered := Run.pairwise_spoken body
  have isRun : ∀ run ∈ Run.spoken body, IsRun (lines body.toList) run :=
    fun run member => Run.isRun_of_mem_spoken member
  refine ⟨Run.spoken body, ordered, ?_, ?_, ?_, ?_⟩
  · intro run
    rw [Run.spoken, List.mem_filter, Run.mem_collect_iff, Run.isSpoken]
    simp
  · rw [spans?, Run.stampedSpans_eq_spoken]
  · intro span member
    rw [← List.map_tail] at member
    rcases List.mem_map.1 member with ⟨run, later, rfl⟩
    cases runsEq : Run.spoken body with
    | nil => simp [runsEq] at later
    | cons first rest =>
        rw [runsEq, List.pairwise_cons] at ordered
        rw [runsEq, List.tail_cons] at later
        have inRuns : run ∈ Run.spoken body :=
          runsEq ▸ List.mem_cons_of_mem _ later
        exact Run.start_ne_none (isRun run inRuns) (ordered.1 run later)
  · intro span member
    rw [← List.map_dropLast] at member
    rcases List.mem_map.1 member with ⟨run, earlier, rfl⟩
    rcases List.eq_nil_or_concat' (Run.spoken body) with
      nothing | ⟨others, last, runsEq⟩
    · simp [nothing] at earlier
    · rw [runsEq, List.pairwise_append] at ordered
      rw [runsEq, List.dropLast_concat] at earlier
      rw [runsEq] at isRun
      exact Run.finish_ne_none
        (isRun run (List.mem_append_left _ earlier))
        (isRun last (List.mem_append_right _ List.mem_cons_self))
        (ordered.2.2 run earlier last List.mem_cons_self)

end LectureQuiz
