import Mathlib.Data.List.Pairwise
import LectureQuiz.Proofs.Bank.Firings

/-!
# Rules that share a tag

A bank passes over the item of a rule when a rule with the same tag has drafted one
from the same text before. Nothing is lost by this if the two rules draft the same
item. So a rule set loses no question exactly when its rules that share a tag, and
can fire on one text, agree in all that an item shows.
-/

namespace LectureQuiz

namespace AnswerTemplate

/-- The kind, the choices and the right choice tell the template. -/
theorem eq_of_parts {first second : AnswerTemplate}
    (kind : first.kind = second.kind) (choices : first.choices = second.choices)
    (correct : first.correctIndex = second.correctIndex) : first = second := by
  cases first with
  | trueFalse firstAnswer =>
      cases second with
      | trueFalse secondAnswer =>
          cases firstAnswer <;> cases secondAnswer <;>
            first | rfl | exact absurd correct (by decide)
      | multipleChoice => exact absurd kind nofun
  | multipleChoice firstChoices firstCorrect =>
      cases second with
      | trueFalse => exact absurd kind nofun
      | multipleChoice secondChoices secondCorrect =>
          exact congrArg₂ multipleChoice choices correct

end AnswerTemplate

namespace Rule

variable {fingerprint : String → Nat} {text : String} {first second third : Rule}

/-- Whether two rules differ at most in their keywords, and in the order and the
repetitions of their tags. -/
structure Agrees (first second : Rule) : Prop where
  module : first.module = second.module
  tag : first.tag = second.tag
  question : first.question = second.question
  answer : first.answer = second.answer
  explanation : first.explanation = second.explanation
  tags : TagSet.ofList first.tags = TagSet.ofList second.tags

theorem Agrees.symm (agrees : first.Agrees second) : second.Agrees first :=
  ⟨agrees.module.symm, agrees.tag.symm, agrees.question.symm, agrees.answer.symm,
    agrees.explanation.symm, agrees.tags.symm⟩

theorem Agrees.trans (agrees : first.Agrees second) (alsoAgrees : second.Agrees third) :
    first.Agrees third :=
  ⟨agrees.module.trans alsoAgrees.module, agrees.tag.trans alsoAgrees.tag,
    agrees.question.trans alsoAgrees.question, agrees.answer.trans alsoAgrees.answer,
    agrees.explanation.trans alsoAgrees.explanation,
    agrees.tags.trans alsoAgrees.tags⟩

theorem draft_eq_iff :
    first.draft fingerprint text = second.draft fingerprint text ↔
      first.Agrees second := by
  constructor
  · intro sameDraft
    simp only [draft, Item.mk.injEq, String.append_left_inj] at sameDraft
    obtain ⟨tag, module, kind, question, choices, correct, explanation, tags, _⟩ :=
      sameDraft
    exact ⟨module, tag, question, AnswerTemplate.eq_of_parts kind choices correct,
      explanation, tags⟩
  · rintro ⟨module, tag, question, answer, explanation, tags⟩
    simp only [draft, module, tag, question, answer, explanation, tags]

end Rule

namespace Bank

variable {fingerprint : String → Nat} {rules : RuleSet} {segments : List Segment}

theorem Firing.item_eq_iff {first second : Firing} (repeats : first.Repeats second) :
    first.item fingerprint = second.item fingerprint ↔
      first.rule.Agrees second.rule := by
  rw [item, item, repeats.2]
  exact Rule.draft_eq_iff

/-- The bank so far starts the bank. -/
theorem isPrefix_emitted
    {earlier later : List Firing}
    (whole : firings rules (byModule segments) = earlier ++ later) :
    (firsts Firing.Repeats earlier).map (Firing.item fingerprint) <+:
      generateWith fingerprint rules segments := by
  rw [generateWith_eq_map_firsts, whole]
  have isPrefix : firsts Firing.Repeats earlier <+:
      firsts Firing.Repeats (earlier ++ later) := firsts_prefix earlier later
  exact isPrefix.map _

/-- A rule that has fired is passed over only if the bank so far has an item of the
same tag from the same text. -/
theorem emitted_or_repeats (earlier : List Firing) (firing : Firing) :
    firsts Firing.Repeats (earlier ++ [firing]) =
        firsts Firing.Repeats earlier ++ [firing] ∨
      firsts Firing.Repeats (earlier ++ [firing]) = firsts Firing.Repeats earlier ∧
        ∃ first ∈ firsts Firing.Repeats earlier, first.Repeats firing := by
  rw [firsts_concat]
  by_cases isRepeated : ∃ other ∈ earlier, other.Repeats firing
  · rw [if_pos isRepeated, List.append_nil]
    obtain ⟨other, inFront, repeats⟩ := isRepeated
    obtain ⟨first, isFirst, firstRepeats⟩ :=
      exists_mem_firsts Firing.repeats_refl Firing.repeats_trans inFront
    exact Or.inr ⟨rfl, first, isFirst,
      Firing.repeats_trans first other firing firstRepeats repeats⟩
  · rw [if_neg isRepeated]
    exact Or.inl rfl

theorem mem_firings_byModule {firing : Firing} :
    firing ∈ firings rules (byModule segments) ↔
      firing.rule ∈ rules.rules ∧ firing.segment ∈ segments := by
  rw [mem_firings, byModule, List.mem_mergeSort]

/-- An item is in the bank if all rules of its tag that fire on its text agree with
its own. -/
theorem item_mem_generateWith
    {firing : Firing} (member : firing ∈ firings rules (byModule segments))
    (agree : ∀ other ∈ firings rules (byModule segments),
      other.Repeats firing → other.rule.Agrees firing.rule) :
    firing.item fingerprint ∈ generateWith fingerprint rules segments := by
  obtain ⟨first, isFirst, repeats⟩ :=
    exists_mem_firsts Firing.repeats_refl Firing.repeats_trans member
  have inFirings := (firsts_sublist _).subset isFirst
  rw [generateWith_eq_map_firsts,
    ← (Firing.item_eq_iff repeats).2 (agree first inFirings repeats)]
  exact List.mem_map_of_mem isFirst

/-- Whether every item that is drafted from one of any segments is in their bank. -/
def LosesNothing (rules : RuleSet) : Prop :=
  ∀ segments : List Segment, ∀ segment ∈ segments,
    ∀ item ∈ rules.apply textFingerprint segment, item ∈ generate rules segments

theorem losesNothing_of_agree
    (agree : ∀ first ∈ rules.rules, ∀ second ∈ rules.rules,
      first.tag = second.tag → ∀ text : String, first.Speaks text →
        second.Speaks text → first.Agrees second) :
    LosesNothing rules := by
  intro segments segment isSegment item isDrafted
  obtain ⟨rule, isRule, fires, rfl⟩ := RuleSet.mem_apply_iff_firesOn.1 isDrafted
  have member : ⟨segment, rule, fires⟩ ∈ firings rules (byModule segments) :=
    mem_firings_byModule.2 ⟨isRule, isSegment⟩
  apply item_mem_generateWith member
  intro other otherMember repeats
  have otherSpeaks := other.fires.2
  rw [repeats.2] at otherSpeaks
  have otherRule := (mem_firings_byModule.1 otherMember).1
  exact agree other.rule otherRule rule isRule repeats.1 segment.text otherSpeaks
    fires.2

/-- In a bank from one text alone, an item tells the rule that it was drafted by. -/
theorem exists_first_agrees
    {text : String} (sameText : ∀ segment ∈ segments, segment.text = text)
    {rule : Rule} (inBank : rule.draft fingerprint text ∈
      generateWith fingerprint rules segments) :
    ∃ first ∈ firsts Firing.Repeats (firings rules (byModule segments)),
      first.segment.text = text ∧ first.rule.Agrees rule := by
  rw [generateWith_eq_map_firsts] at inBank
  obtain ⟨first, isFirst, sameItem⟩ := List.mem_map.1 inBank
  have inFirings := (firsts_sublist _).subset isFirst
  have ofText := sameText _ (mem_firings_byModule.1 inFirings).2
  rw [Firing.item, ofText] at sameItem
  exact ⟨first, isFirst, ofText, Rule.draft_eq_iff.1 sameItem⟩

/-- The two rules are tried on one text, each in its own module. Of their items the
bank keeps one. -/
theorem agrees_of_losesNothing
    (losesNothing : LosesNothing rules) {first second : Rule}
    (isFirst : first ∈ rules.rules) (isSecond : second ∈ rules.rules)
    (sameTag : first.tag = second.tag) {text : String}
    (firstSpeaks : first.Speaks text) (secondSpeaks : second.Speaks text) :
    first.Agrees second := by
  let segmentFor (rule : Rule) : Segment := ⟨"", rule.module, none, none, text⟩
  have sameText : ∀ segment ∈ [segmentFor first, segmentFor second],
      segment.text = text := by
    simp [segmentFor]
  have inBank {rule : Rule} (isRule : rule ∈ rules.rules) (speaks : rule.Speaks text)
      (isOne : segmentFor rule ∈ [segmentFor first, segmentFor second]) :
      rule.draft textFingerprint text ∈
        generate rules [segmentFor first, segmentFor second] := by
    have fires : rule.FiresOn (segmentFor rule) := ⟨rfl, speaks⟩
    exact losesNothing _ _ isOne _
      (RuleSet.mem_apply_iff_firesOn.2 ⟨rule, isRule, fires, rfl⟩)
  obtain ⟨one, oneFirst, oneText, oneAgrees⟩ :=
    exists_first_agrees sameText (inBank isFirst firstSpeaks (by simp))
  obtain ⟨other, otherFirst, otherText, otherAgrees⟩ :=
    exists_first_agrees sameText (inBank isSecond secondSpeaks (by simp))
  have repeats : one.Repeats other :=
    ⟨oneAgrees.tag.trans (sameTag.trans otherAgrees.tag.symm),
      oneText.trans otherText.symm⟩
  have sameFiring : one = other := by
    by_contra different
    exact (pairwise_firsts _).forall oneFirst otherFirst different repeats
  rw [← sameFiring] at otherAgrees
  exact oneAgrees.symm.trans otherAgrees

/-- When a rule has fired, its item comes next in the bank, or the bank so far has an
item of the same tag from the same text. That one is the item of the rule exactly if
the two rules agree. So a rule set loses no item of any segments exactly if all of its
rules agree that share a tag and can fire on one text. -/
theorem losesNothing_iff_agree (rules : RuleSet) :
    (∀ (segments : List Segment) (earlier later : List Firing) (firing : Firing),
        firings rules (byModule segments) = earlier ++ firing :: later →
        (firsts Firing.Repeats (earlier ++ [firing])).map
              (Firing.item textFingerprint) <+: generate rules segments ∧
          (firsts Firing.Repeats (earlier ++ [firing]) =
              firsts Firing.Repeats earlier ++ [firing] ∨
            firsts Firing.Repeats (earlier ++ [firing]) =
                firsts Firing.Repeats earlier ∧
              ∃ first ∈ firsts Firing.Repeats earlier, first.Repeats firing ∧
                (first.item textFingerprint = firing.item textFingerprint ↔
                  first.rule.Agrees firing.rule))) ∧
      (LosesNothing rules ↔
        ∀ first ∈ rules.rules, ∀ second ∈ rules.rules, first.tag = second.tag →
          ∀ text : String, first.Speaks text → second.Speaks text →
            first.Agrees second) := by
  refine ⟨fun segments earlier later firing whole => ⟨?_, ?_⟩, ?_,
    losesNothing_of_agree⟩
  · rw [List.append_cons earlier firing later] at whole
    exact isPrefix_emitted whole
  · rcases emitted_or_repeats earlier firing with
      isNext | ⟨same, first, isFirst, repeats⟩
    · exact Or.inl isNext
    · exact Or.inr ⟨same, first, isFirst, repeats, Firing.item_eq_iff repeats⟩
  · intro losesNothing first isFirst second isSecond sameTag text firstSpeaks
      secondSpeaks
    exact agrees_of_losesNothing losesNothing isFirst isSecond sameTag firstSpeaks
      secondSpeaks

/-- A rule on subsets with a question of its own. -/
def subsetRule (question : String) : Rule where
  module := 9
  tag := "M9-SUB-"
  keywords := ["subset"]
  question := question
  answer := .trueFalse true
  explanation := ""
  tags := []

/-- Two usable rules of one tag draft two items from one text, and the bank has one. -/
theorem not_losesNothing_of_sharedTag :
    let rules := RuleSet.empty.extend
      [subsetRule "Every set is a subset of itself.",
        subsetRule "The empty set is a subset of every set."]
    let segment : Segment := ⟨"lec09", 9, none, none, "subset"⟩
    rules.2 = none ∧
      (rules.1.apply textFingerprint segment).length = 2 ∧
      (generate rules.1 [segment]).length = 1 ∧ ¬LosesNothing rules.1 := by
  intro rules segment
  have isLost : ∃ item ∈ rules.1.apply textFingerprint segment,
      item ∉ generate rules.1 [segment] := by
    decide +kernel
  refine ⟨by decide +kernel, by decide +kernel, by decide +kernel, ?_⟩
  intro losesNothing
  obtain ⟨item, isDrafted, notInBank⟩ := isLost
  exact notInBank
    (losesNothing [segment] segment (List.mem_singleton_self segment) item isDrafted)

end Bank

end LectureQuiz
