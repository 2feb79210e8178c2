import LectureQuiz.Bank

namespace LectureQuiz.Bank

/-- Whether a list has the segments of another one by increasing module, those of one
module in the same order. -/
structure IsByModule (segments ordered : List Segment) : Prop where
  increasing : ordered.Pairwise fun first second => first.module ≤ second.module
  stable : ∀ module : UInt32,
    ordered.filter (·.module = module) = segments.filter (·.module = module)

theorem module_le_trans (first second third : Segment)
    (firstLess : decide (first.module ≤ second.module) = true)
    (secondLess : decide (second.module ≤ third.module) = true) :
    decide (first.module ≤ third.module) = true :=
  decide_eq_true
    (UInt32.le_trans (of_decide_eq_true firstLess) (of_decide_eq_true secondLess))

theorem module_le_total (first second : Segment) :
    (decide (first.module ≤ second.module) ||
      decide (second.module ≤ first.module)) = true := by
  rcases UInt32.le_total first.module second.module with less | less
  · simp [less]
  · simp [less]

theorem increasing_byModule (segments : List Segment) :
    (byModule segments).Pairwise fun first second => first.module ≤ second.module := by
  have sorted := List.pairwise_mergeSort module_le_trans module_le_total segments
  exact sorted.imp of_decide_eq_true

/-- The segments of one module are in increasing order before any sorting, so that
sorting leaves them as they are. -/
theorem filter_byModule (segments : List Segment) (module : UInt32) :
    (byModule segments).filter (·.module = module) =
      segments.filter (·.module = module) := by
  have sameModule : (segments.filter (·.module = module)).Pairwise
      fun first second => decide (first.module ≤ second.module) = true := by
    apply List.pairwise_of_forall_mem_list
    intro first inFirst second inSecond
    have firstModule := of_decide_eq_true (List.mem_filter.1 inFirst).2
    have secondModule := of_decide_eq_true (List.mem_filter.1 inSecond).2
    rw [firstModule, secondModule]
    exact decide_eq_true (UInt32.le_refl module)
  have inOrder : (segments.filter (·.module = module)).Sublist (byModule segments) :=
    List.sublist_mergeSort module_le_trans module_le_total sameModule
      List.filter_sublist
  have isSublist := inOrder.filter (·.module = module)
  rw [List.filter_filter] at isSublist
  simp only [Bool.and_self] at isSublist
  have isPermutation : (byModule segments).Perm segments :=
    List.mergeSort_perm segments _
  have sameLength := (isPermutation.filter (·.module = module)).length_eq
  exact (isSublist.eq_of_length sameLength.symm).symm

theorem isByModule_byModule (segments : List Segment) :
    IsByModule segments (byModule segments) :=
  ⟨increasing_byModule segments, filter_byModule segments⟩

/-- The first segments of two such lists have the least module of both. So they are
the first segments of that module in the same list. -/
theorem head_eq_of_filter_eq
    {first second : Segment} {firsts seconds : List Segment}
    (firstIncreasing : (first :: firsts).Pairwise fun left right =>
      left.module ≤ right.module)
    (secondIncreasing : (second :: seconds).Pairwise fun left right =>
      left.module ≤ right.module)
    (same : ∀ module : UInt32, (first :: firsts).filter (·.module = module) =
      (second :: seconds).filter (·.module = module)) :
    first = second := by
  have least {head other : Segment} {rest : List Segment}
      (increasing : (head :: rest).Pairwise fun left right =>
        left.module ≤ right.module)
      (member : other ∈ head :: rest) : head.module ≤ other.module := by
    rcases List.mem_cons.1 member with rfl | inRest
    · exact UInt32.le_refl _
    · exact (List.pairwise_cons.1 increasing).1 other inRest
  have firstIn : first ∈ second :: seconds := by
    have inFilter : first ∈
        (first :: firsts).filter (·.module = first.module) := by simp
    rw [same] at inFilter
    exact (List.mem_filter.1 inFilter).1
  have secondIn : second ∈ first :: firsts := by
    have inFilter : second ∈
        (second :: seconds).filter (·.module = second.module) := by simp
    rw [← same] at inFilter
    exact (List.mem_filter.1 inFilter).1
  have sameModule : second.module = first.module :=
    UInt32.le_antisymm (least secondIncreasing firstIn) (least firstIncreasing secondIn)
  have sameFilter := same first.module
  rw [List.filter_cons_of_pos (by simp),
    List.filter_cons_of_pos (by simp [sameModule])] at sameFilter
  exact (List.cons.inj sameFilter).1

theorem eq_of_filter_eq
    {firsts seconds : List Segment}
    (firstIncreasing : firsts.Pairwise fun left right => left.module ≤ right.module)
    (secondIncreasing : seconds.Pairwise fun left right => left.module ≤ right.module)
    (same : ∀ module : UInt32, firsts.filter (·.module = module) =
      seconds.filter (·.module = module)) :
    firsts = seconds := by
  induction firsts generalizing seconds with
  | nil =>
      cases seconds with
      | nil => rfl
      | cons second seconds => simpa using same second.module
  | cons first firsts inductionHypothesis =>
      cases seconds with
      | nil => simpa using same first.module
      | cons second seconds =>
          have sameHead :=
            head_eq_of_filter_eq firstIncreasing secondIncreasing same
          subst sameHead
          congr 1
          apply inductionHypothesis firstIncreasing.of_cons secondIncreasing.of_cons
          intro module
          have sameFilter := same module
          by_cases ofModule : first.module = module
          · rw [List.filter_cons_of_pos (by simpa using ofModule),
              List.filter_cons_of_pos (by simpa using ofModule)] at sameFilter
            exact (List.cons.inj sameFilter).2
          · rw [List.filter_cons_of_neg (by simpa using ofModule),
              List.filter_cons_of_neg (by simpa using ofModule)] at sameFilter
            exact sameFilter

theorem IsByModule.eq_byModule
    {segments ordered : List Segment} (isByModule : IsByModule segments ordered) :
    ordered = byModule segments := by
  apply eq_of_filter_eq isByModule.increasing (increasing_byModule segments)
  intro module
  rw [isByModule.stable, filter_byModule]

end LectureQuiz.Bank
