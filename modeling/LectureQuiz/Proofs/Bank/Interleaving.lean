import LectureQuiz.Proofs.Bank.Firings
import LectureQuiz.Rule.Course

/-!
# Interleaved and repeated segments

A bank is told by the texts of each module in their order. It makes no difference how the
segments of different modules are interleaved, which videos they are from, and whether a
text comes again in its module.
-/

namespace LectureQuiz.Bank

variable {fingerprint : String → Nat} {rules : RuleSet} {segments : List Segment}

/-- The texts of the segments of a module, in their order. -/
def textsOf (module : UInt32) (segments : List Segment) : List String :=
  (segments.filter (·.module = module)).map Segment.text

/-- The segment without the video and the times that it stands for. -/
def unplaced (segment : Segment) : Segment :=
  ⟨"", segment.module, none, none, segment.text⟩

theorem filter_map_unplaced (module : UInt32) (segments : List Segment) :
    (segments.map unplaced).filter (·.module = module) =
      (textsOf module segments).map fun text => ⟨"", module, none, none, text⟩ := by
  rw [List.filter_map, textsOf, List.map_map]
  apply List.map_congr_left
  intro segment member
  have isModule : segment.module = module := of_decide_eq_true (List.mem_filter.1 member).2
  rw [Function.comp_apply, unplaced, isModule]

theorem textsOf_byModule (module : UInt32) (segments : List Segment) :
    textsOf module (byModule segments) = textsOf module segments := by
  rw [textsOf, filter_byModule, textsOf]

/-- Sorted by module, the segments are told by the texts of every module. -/
theorem map_unplaced_byModule
    {first second : List Segment}
    (same : ∀ module, textsOf module first = textsOf module second) :
    (byModule first).map unplaced = (byModule second).map unplaced := by
  have increasing (segments : List Segment) :
      ((byModule segments).map unplaced).Pairwise fun left right =>
        left.module ≤ right.module :=
    List.pairwise_map.2 (increasing_byModule segments)
  apply eq_of_filter_eq (increasing first) (increasing second)
  intro module
  rw [filter_map_unplaced, filter_map_unplaced, textsOf_byModule, textsOf_byModule,
    same module]

theorem drafts_map_unplaced (segments : List Segment) :
    drafts fingerprint rules (segments.map unplaced) = drafts fingerprint rules segments := by
  rw [drafts, drafts, List.flatMap_map]
  rfl

theorem generateWith_eq_of_textsOf
    {first second : List Segment}
    (same : ∀ module, textsOf module first = textsOf module second) :
    generateWith fingerprint rules first = generateWith fingerprint rules second := by
  rw [generateWith, ← drafts_map_unplaced, map_unplaced_byModule same, drafts_map_unplaced,
    generateWith]

/-- Elements that are the same as some in front of them change nothing about the first
ones, wherever they stand. -/
theorem firsts_append_of_repeats
    {alpha : Type} {same : alpha → alpha → Prop} [DecidableRel same]
    (trans : ∀ first second third, same first second → same second third →
      same first third)
    {front repeated : List alpha}
    (repeats : ∀ item ∈ repeated, ∃ earlier ∈ front, same earlier item)
    (rest : List alpha) :
    firsts same (front ++ repeated ++ rest) = firsts same (front ++ rest) := by
  induction rest using List.reverseRecOn with
  | nil =>
      rw [List.append_nil, List.append_nil]
      induction repeated using List.reverseRecOn with
      | nil => rw [List.append_nil]
      | append_singleton others last inductionHypothesis =>
          rw [List.forall_mem_append, List.forall_mem_singleton] at repeats
          obtain ⟨earlier, inFront, isSame⟩ := repeats.2
          have isRepeated : ∃ item ∈ front ++ others, same item last :=
            ⟨earlier, List.mem_append_left _ inFront, isSame⟩
          rw [← List.append_assoc, firsts_concat, if_pos isRepeated, List.append_nil]
          exact inductionHypothesis repeats.1
  | append_singleton rest last inductionHypothesis =>
      have isKnown : (∃ item ∈ front ++ repeated ++ rest, same item last) ↔
          ∃ item ∈ front ++ rest, same item last := by
        constructor
        · rintro ⟨item, member, isSame⟩
          rw [List.append_assoc, List.mem_append, List.mem_append] at member
          rcases member with inFront | isRepeat | inRest
          · exact ⟨item, List.mem_append_left _ inFront, isSame⟩
          · obtain ⟨earlier, inFront, repeatsItem⟩ := repeats item isRepeat
            exact ⟨earlier, List.mem_append_left _ inFront,
              trans earlier item last repeatsItem isSame⟩
          · exact ⟨item, List.mem_append_right _ inRest, isSame⟩
        · rintro ⟨item, member, isSame⟩
          rw [List.mem_append] at member
          refine ⟨item, ?_, isSame⟩
          rw [List.append_assoc, List.mem_append, List.mem_append]
          exact member.imp_right Or.inr
      rw [← List.append_assoc, ← List.append_assoc, firsts_concat, firsts_concat,
        inductionHypothesis]
      congr 1
      exact if_congr isKnown rfl rfl

/-- A segment that is put into a list is put into the sorted list somewhere behind the
segments of its module that were in front of it, and nothing else changes there. -/
theorem exists_byModule_insert
    (front rest : List Segment) (segment : Segment) :
    ∃ before behind, byModule (front ++ segment :: rest) = before ++ segment :: behind ∧
      byModule (front ++ rest) = before ++ behind ∧
      ∀ earlier ∈ front, earlier.module = segment.module → earlier ∈ before := by
  have ofModule := filter_byModule (front ++ segment :: rest) segment.module
  rw [List.filter_append, List.filter_cons_of_pos (by simp),
    List.filter_eq_append_iff] at ofModule
  obtain ⟨before, others, whole, isFront, ofOthers⟩ := ofModule
  obtain ⟨gap, behind, rfl, gapElsewhere, _, isRest⟩ := List.filter_eq_cons_iff.1 ofOthers
  have gapEmpty : gap.filter (·.module = segment.module) = [] :=
    List.filter_eq_nil_iff.2 gapElsewhere
  rw [← List.append_assoc] at whole
  have increasing := increasing_byModule (front ++ segment :: rest)
  rw [whole] at increasing
  have fewer : (before ++ gap ++ behind).Sublist (before ++ gap ++ segment :: behind) :=
    (List.sublist_cons_self segment behind).append_left (before ++ gap)
  have stable : ∀ module : UInt32, (before ++ gap ++ behind).filter (·.module = module) =
      (front ++ rest).filter (·.module = module) := by
    intro module
    by_cases isModule : segment.module = module
    · subst isModule
      rw [List.filter_append, List.filter_append, List.filter_append, isFront, gapEmpty,
        isRest, List.append_nil]
    · have same := filter_byModule (front ++ segment :: rest) module
      rw [whole, List.filter_append, List.filter_append _ (segment :: rest),
        List.filter_cons_of_neg (by simpa using isModule),
        List.filter_cons_of_neg (by simpa using isModule), ← List.filter_append,
        ← List.filter_append] at same
      exact same
  have isByModule : IsByModule (front ++ rest) (before ++ gap ++ behind) :=
    ⟨increasing.sublist fewer, stable⟩
  refine ⟨before ++ gap, behind, whole, isByModule.eq_byModule.symm, ?_⟩
  intro earlier inFront sameModule
  have inFilter : earlier ∈ front.filter (·.module = segment.module) :=
    List.mem_filter.2 ⟨inFront, by simpa using sameModule⟩
  rw [← isFront] at inFilter
  exact List.mem_append_left _ (List.mem_filter.1 inFilter).1

/-- The rules that fire on a segment have fired on every earlier one of its module that
has the same text. -/
theorem exists_repeats_of_mem_firingsOn
    {front : List Segment} {earlier segment : Segment} (member : earlier ∈ front)
    (sameModule : segment.module = earlier.module) (sameText : segment.text = earlier.text)
    {firing : Firing} (fires : firing ∈ firingsOn rules.rules segment) :
    ∃ other ∈ firings rules front, other.Repeats firing := by
  obtain ⟨isRule, rfl⟩ := mem_firingsOn.1 fires
  have firesEarlier : firing.rule.FiresOn earlier := by
    have fires := firing.fires
    rw [Rule.FiresOn, sameModule, sameText] at fires
    exact fires
  exact ⟨⟨earlier, firing.rule, firesEarlier⟩, mem_firings.2 ⟨isRule, member⟩, rfl,
    sameText.symm⟩

theorem generateWith_insert
    {front rest : List Segment} {earlier repeated : Segment} (member : earlier ∈ front)
    (sameModule : repeated.module = earlier.module)
    (sameText : repeated.text = earlier.text) :
    generateWith fingerprint rules (front ++ repeated :: rest) =
      generateWith fingerprint rules (front ++ rest) := by
  obtain ⟨before, behind, withRepeat, without, included⟩ :=
    exists_byModule_insert front rest repeated
  have inBefore := included earlier member sameModule.symm
  rw [generateWith_eq_map_firsts, generateWith_eq_map_firsts, withRepeat, without, firings,
    firings, List.flatMap_append, List.flatMap_cons, List.flatMap_append, ← List.append_assoc]
  rw [firsts_append_of_repeats Firing.repeats_trans]
  intro firing fires
  exact exists_repeats_of_mem_firingsOn inBefore sameModule sameText fires

/-- Some segments with repeats put in, each of them somewhere behind a segment of the same
module that has the same text. -/
inductive AddsRepeats (segments : List Segment) : List Segment → Prop
  | none : AddsRepeats segments segments
  | insert {front rest : List Segment} {earlier repeated : Segment} :
      AddsRepeats segments (front ++ rest) → earlier ∈ front →
      repeated.module = earlier.module → repeated.text = earlier.text →
      AddsRepeats segments (front ++ repeated :: rest)

theorem generateWith_eq_of_addsRepeats
    {more : List Segment} (adds : AddsRepeats segments more) :
    generateWith fingerprint rules more = generateWith fingerprint rules segments := by
  induction adds with
  | none => rfl
  | insert adds member sameModule sameText inductionHypothesis =>
      rw [generateWith_insert member sameModule sameText]
      exact inductionHypothesis

/-- The bank is told by the texts of every module in their order, and texts that come
again in their module add nothing to it. This is so for all numbers that texts may have in
ids. -/
theorem generateWith_of_texts
    (fingerprint : String → Nat) (rules : RuleSet) (segments other : List Segment) :
    ((∀ module, textsOf module segments = textsOf module other) →
        generateWith fingerprint rules segments = generateWith fingerprint rules other) ∧
      (AddsRepeats segments other →
        generateWith fingerprint rules other = generateWith fingerprint rules segments) :=
  ⟨generateWith_eq_of_textsOf, generateWith_eq_of_addsRepeats⟩

/-- Two modules change places, and a text comes again from another video. -/
theorem generateWith_of_texts_sample :
    let first : Segment := ⟨"lec01", 6, none, none, "Show the base case."⟩
    let second : Segment := ⟨"lec02", 9, some 3, some 8, "Write A ∪ B."⟩
    let again : Segment := ⟨"lec03", 6, none, some 5, "Show the base case."⟩
    (∀ module, textsOf module [first, second] = textsOf module [second, again]) ∧
      AddsRepeats [first, second] [first, second, again] ∧
      generateWith textFingerprint .course [first, second] =
        generateWith textFingerprint .course [second, again] ∧
      generateWith textFingerprint .course [first, second, again] =
        generateWith textFingerprint .course [first, second] := by
  intro first second again
  have same : ∀ module, textsOf module [first, second] = textsOf module [second, again] := by
    intro module
    by_cases isSixth : (6 : UInt32) = module
    · subst isSixth
      decide
    · simp [textsOf, List.filter_cons, first, second, again, isSixth]
  have adds : AddsRepeats [first, second] ([first, second] ++ again :: []) :=
    .insert .none List.mem_cons_self rfl rfl
  exact ⟨same, adds,
    (generateWith_of_texts textFingerprint .course [first, second] [second, again]).1 same,
    (generateWith_of_texts textFingerprint .course [first, second]
      ([first, second] ++ again :: [])).2 adds⟩

end LectureQuiz.Bank
