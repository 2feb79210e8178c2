import LectureQuiz.Bank
import LectureQuiz.Proofs.FileTree.Entry
import LectureQuiz.Proofs.QuizSet.Banks
import LectureQuiz.Proofs.Rule
import LectureQuiz.Rule.Course

namespace LectureQuiz

open LectureQuiz.Text

namespace Bank

variable {fingerprint : String → Nat} {rules : RuleSet} {segments : List Segment}
  {item : Item}

theorem firstOccurrences_sublist
    (seen : List (String × String)) (drafts : List Draft) :
    (firstOccurrences seen drafts).Sublist (drafts.map Draft.item) := by
  induction drafts generalizing seen with
  | nil => exact List.Sublist.refl []
  | cons draft rest inductionHypothesis =>
      rw [firstOccurrences]
      split
      · exact (inductionHypothesis seen).cons draft.item
      · exact (inductionHypothesis _).cons_cons draft.item

theorem exists_of_mem_generateWith
    (member : item ∈ generateWith fingerprint rules segments) :
    ∃ segment ∈ segments, item ∈ rules.apply fingerprint segment := by
  have isDraft := (firstOccurrences_sublist [] _).subset member
  obtain ⟨draft, inDrafts, rfl⟩ := List.mem_map.1 isDraft
  obtain ⟨segment, inOrder, isApplied⟩ := List.mem_flatMap.1 inDrafts
  obtain ⟨item, inItems, rfl⟩ := List.mem_map.1 isApplied
  exact ⟨segment, List.mem_mergeSort.1 inOrder, inItems⟩

end Bank

/-- The item was drafted from the text by a rule of the set. It can be used, and its
answer is the choice that the rule intends. -/
structure RuleSet.Drafts (rules : RuleSet) (text : String) (item : Item) : Prop where
  valid : item.validate = .ok ()
  answered : ∃ rule ∈ rules.rules, item = rule.draft textFingerprint text ∧
    ∃ choice, rule.answer.intended? = some choice ∧ item.answer? = some choice

theorem RuleSet.drafts_of_mem_apply
    {rules : RuleSet} {segment : Segment} {item : Item}
    (member : item ∈ rules.apply textFingerprint segment) :
    rules.Drafts segment.text item := by
  obtain ⟨_, rule, isRule, _, _, rfl⟩ := mem_apply.1 member
  have usable := rules.valid rule isRule
  constructor
  case valid => exact Rule.validate_draft textFingerprint segment.text usable
  case answered =>
    have answer := Rule.answer?_draft textFingerprint segment.text usable
    exact ⟨rule, isRule, rfl, answer⟩

/-- A bank of valid items is read back whole from the file that it was written to. -/
theorem runOn_readBanks_of_writeRecords
    {files : FileTree} {path : Path} {items : List Item} {session : Session}
    (valid : ∀ item ∈ items, item.validate = .ok ())
    (run : (Job.writeRecords path items).runOn files = (.ok (), session)) :
    (readBanks [path]).runOn session.files = (.ok items, ⟨session.files, []⟩) := by
  obtain ⟨made, other, _, written, rfl⟩ :=
    Job.yields_writeRecords.1 (Job.yields_iff_runOn.2 run)
  have isRead := FileTree.read_of_write written
  have allValid : items.filter Item.isValid = items := by
    apply List.filter_eq_self.2
    intro item member
    rw [Item.isValid, valid item member]
    rfl
  have reads := runOn_readBanks_of_texts (.cons isRead .nil)
  rw [List.flatMap_singleton, usableItems, Records.parse_render, allValid] at reads
  exact reads

/-- All items that a rule set drafts can be used and have the intended answer. A
bank of them that was written is read as the same list, so that packing passes over
none of them. -/
theorem drafts_and_readBanks_of_generate (rules : RuleSet) (segments : List Segment) :
    (∀ segment, ∀ item ∈ rules.apply textFingerprint segment,
        rules.Drafts segment.text item) ∧
      (∀ item ∈ Bank.generate rules segments,
        ∃ segment ∈ segments, rules.Drafts segment.text item) ∧
      ∀ (files : FileTree) (path : Path) (session : Session),
        (Job.writeRecords path (Bank.generate rules segments)).runOn files =
            (.ok (), session) →
          (readBanks [path]).runOn session.files =
            (.ok (Bank.generate rules segments), ⟨session.files, []⟩) := by
  have inBank : ∀ item ∈ Bank.generate rules segments,
      ∃ segment ∈ segments, rules.Drafts segment.text item := by
    intro item member
    obtain ⟨segment, isSegment, inItems⟩ := Bank.exists_of_mem_generateWith member
    exact ⟨segment, isSegment, RuleSet.drafts_of_mem_apply inItems⟩
  refine ⟨?_, inBank, ?_⟩
  · intro segment item member
    exact RuleSet.drafts_of_mem_apply member
  · intro files path session run
    apply runOn_readBanks_of_writeRecords _ run
    intro item member
    obtain ⟨_, _, drafts⟩ := inBank item member
    exact drafts.valid

/-- A bank of one item, written next to nothing. -/
theorem readBanks_of_base_case :
    let segment : Segment := ⟨"lec01", 6, none, none, "Show the base case."⟩
    let bank := Bank.generate .course [segment]
    ∃ (item : Item) (session : Session),
      item ∈ RuleSet.course.apply textFingerprint segment ∧
        RuleSet.course.Drafts segment.text item ∧ item ∈ bank ∧
        (Job.writeRecords ⟨"bank.jsonl"⟩ bank).runOn .empty = (.ok (), session) ∧
        (readBanks [⟨"bank.jsonl"⟩]).runOn session.files =
          (.ok bank, ⟨session.files, []⟩) := by
  intro segment bank
  have ⟨applied, drafted, isOk⟩ :
      RuleSet.course.apply textFingerprint segment =
          [inductionRule.draft textFingerprint segment.text] ∧
        bank = [inductionRule.draft textFingerprint segment.text] ∧
        ((Job.writeRecords ⟨"bank.jsonl"⟩ bank).runOn .empty).1.isOk = true := by
    decide +kernel
  obtain ⟨⟨⟩, run⟩ := Job.exists_of_isOk isOk
  have inItems : inductionRule.draft textFingerprint segment.text ∈
      RuleSet.course.apply textFingerprint segment := by
    rw [applied]
    exact List.mem_cons_self
  have inBank : inductionRule.draft textFingerprint segment.text ∈ bank := by
    rw [drafted]
    exact List.mem_cons_self
  have ⟨drafts, _, survives⟩ := drafts_and_readBanks_of_generate .course [segment]
  exact ⟨_, _, inItems, drafts segment _ inItems, inBank, run,
    survives .empty ⟨"bank.jsonl"⟩ _ run⟩

end LectureQuiz
