import LectureQuiz.Rule

namespace LectureQuiz

open LectureQuiz.Text

/-- An item is valid when it has an id, at least two choices with the right one
among them, and the fixed choices if it is a true-or-false item. -/
theorem Item.validate_eq_ok_iff {item : Item} :
    item.validate = .ok () ↔
      isBlankText item.id = false ∧ 2 ≤ item.choices.length ∧
        item.answerIndex.toNat < item.choices.length ∧
        (item.kind = .trueFalse → item.choices = trueFalseChoices) := by
  rw [validate]
  by_cases blank : isBlankText item.id = true
  · simp [blank]
  rw [if_neg blank]
  have notBlank : isBlankText item.id = false := Bool.eq_false_iff.2 blank
  cases kind : item.kind with
  | trueFalse =>
      have two : trueFalseChoices.length = 2 := rfl
      have behind : 1 < item.answerIndex ↔ 2 ≤ item.answerIndex.toNat := by
        rw [UInt64.lt_iff_toNat_lt]
        rfl
      by_cases fixed : item.choices = trueFalseChoices
      · dsimp only
        rw [if_neg (not_not_intro fixed), fixed, two]
        by_cases outside : 1 < item.answerIndex
        · rw [if_pos outside]
          refine iff_of_false nofun ?_
          intro valid
          obtain ⟨_, _, inside, _⟩ := valid
          exact Nat.not_lt.2 (behind.1 outside) inside
        · rw [if_neg outside]
          have inside := Nat.lt_of_not_le (mt behind.2 outside)
          exact iff_of_true rfl ⟨notBlank, Nat.le_refl 2, inside, fun _ => rfl⟩
      · simp [fixed]
  | multipleChoice =>
      by_cases few : item.choices.length < 2
      · simp [few, Nat.not_le.2 few]
      · by_cases outside : item.choices.length ≤ item.answerIndex.toNat
        · simp [few, outside, Nat.not_lt.2 outside]
        · simp [few, outside, notBlank, Nat.le_of_not_lt, Nat.lt_of_not_le]

namespace AnswerTemplate

/-- The choice that is right. -/
def intended? : AnswerTemplate → Option String
  | .trueFalse true => some "True"
  | .trueFalse false => some "False"
  | .multipleChoice choices correct => choices[correct.toNat]?

/-- There are at least two choices, and the right one is among them. -/
def IsUsable (template : AnswerTemplate) : Prop :=
  2 ≤ template.choices.length ∧
    template.correctIndex.toNat < template.choices.length

theorem isUsable_trueFalse (answer : Bool) : IsUsable (.trueFalse answer) := by
  cases answer <;> exact ⟨by decide, by decide⟩

theorem choice_eq_intended? (template : AnswerTemplate) :
    template.choices[template.correctIndex.toNat]? = template.intended? := by
  cases template with
  | trueFalse answer => cases answer <;> rfl
  | multipleChoice choices correct => rfl

theorem choices_of_kind {template : AnswerTemplate}
    (isTrueFalse : template.kind = .trueFalse) :
    template.choices = trueFalseChoices := by
  cases template with
  | trueFalse answer => rfl
  | multipleChoice choices correct => exact absurd isTrueFalse nofun

end AnswerTemplate

namespace Rule

variable {rule : Rule}

theorem validate_eq_ok_iff :
    rule.validate = .ok () ↔
      isBlankText rule.tag = false ∧
        (∃ keyword ∈ rule.keywords, isBlankText keyword = false) ∧
        rule.answer.IsUsable := by
  rw [validate]
  by_cases blank : isBlankText rule.tag = true
  · simp [blank]
  rw [if_neg blank]
  by_cases noKeywords : rule.keywords.all isBlankText = true
  · rw [if_pos noKeywords]
    have allBlank : ¬∃ keyword ∈ rule.keywords, isBlankText keyword = false := by
      simpa using noKeywords
    simp [allBlank]
  rw [if_neg noKeywords]
  have hasKeyword : ∃ keyword ∈ rule.keywords, isBlankText keyword = false := by
    simpa using noKeywords
  have named : isBlankText rule.tag = false := Bool.eq_false_iff.2 blank
  refine Iff.trans ?_ (and_iff_right named).symm
  refine Iff.trans ?_ (and_iff_right hasKeyword).symm
  cases rule.answer with
  | trueFalse answer => simp [AnswerTemplate.isUsable_trueFalse answer]
  | multipleChoice choices correct =>
      have usable : (AnswerTemplate.multipleChoice choices correct).IsUsable ↔
          ¬(choices.length < 2 ∨ choices.length ≤ correct.toNat) := by
        rw [AnswerTemplate.IsUsable, AnswerTemplate.choices,
          AnswerTemplate.correctIndex]
        omega
      rw [usable]
      dsimp only
      by_cases bad : choices.length < 2 ∨ choices.length ≤ correct.toNat
      · rw [if_pos bad]
        exact iff_of_false nofun (not_not_intro bad)
      · rw [if_neg bad]
        exact iff_of_true rfl bad

variable (fingerprint : String → Nat) (text : String)

/-- The number behind the tag cannot make an id blank that the tag keeps from being
blank. -/
theorem isBlankText_id_draft (named : isBlankText rule.tag = false) :
    isBlankText (rule.draft fingerprint text).id = false := by
  have id : (rule.draft fingerprint text).id =
      rule.tag ++ toString (fingerprint text) := rfl
  rw [isBlankText] at named
  rw [id, isBlankText, String.toList_append, List.all_append, named,
    Bool.false_and]

theorem validate_draft (usable : rule.validate = .ok ()) :
    (rule.draft fingerprint text).validate = .ok () := by
  obtain ⟨named, _, enough, inside⟩ := validate_eq_ok_iff.1 usable
  apply Item.validate_eq_ok_iff.2
  refine ⟨isBlankText_id_draft fingerprint text named, enough, inside, ?_⟩
  intro isTrueFalse
  exact AnswerTemplate.choices_of_kind isTrueFalse

theorem answer?_draft (usable : rule.validate = .ok ()) :
    ∃ choice, rule.answer.intended? = some choice ∧
      (rule.draft fingerprint text).answer? = some choice := by
  obtain ⟨_, _, _, inside⟩ := validate_eq_ok_iff.1 usable
  have isChoice := List.getElem?_eq_getElem inside
  have intended := rule.answer.choice_eq_intended?
  rw [isChoice] at intended
  exact ⟨_, intended.symm, isChoice⟩

end Rule

namespace RuleSet

theorem fault_extend_of_forall
    (set : RuleSet) {rules : List Rule}
    (usable : ∀ rule ∈ rules, rule.validate = .ok ()) :
    (set.extend rules).2 = none := by
  induction rules generalizing set with
  | nil => rfl
  | cons rule rest inductionHypothesis =>
      have first := usable rule List.mem_cons_self
      rw [extend]
      split
      · rename_i fault refused
        exact absurd (first.symm.trans refused) nofun
      · apply inductionHypothesis
        intro other member
        exact usable other (List.mem_cons_of_mem rule member)

theorem mem_apply
    {fingerprint : String → Nat} {set : RuleSet} {segment : Segment} {item : Item} :
    item ∈ set.apply fingerprint segment ↔
      isBlankText segment.text = false ∧
        ∃ rule ∈ set.rules, rule.module = segment.module ∧
          rule.fires (lowercased segment.text) = true ∧
          item = rule.draft fingerprint segment.text := by
  rw [apply]
  by_cases blank : isBlankText segment.text = true
  · simp [blank]
  · rw [if_neg blank]
    simp only [List.mem_map, List.mem_filter, Bool.and_eq_true, beq_iff_eq,
      Bool.eq_false_iff.2 blank, true_and]
    constructor
    · rintro ⟨rule, ⟨member, sameModule, fires⟩, rfl⟩
      exact ⟨rule, member, sameModule, fires, rfl⟩
    · rintro ⟨rule, member, sameModule, fires, rfl⟩
      exact ⟨rule, ⟨member, sameModule, fires⟩, rfl⟩

end RuleSet

end LectureQuiz
