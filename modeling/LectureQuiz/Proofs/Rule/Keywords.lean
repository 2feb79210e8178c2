import LectureQuiz.Proofs.Rule.Firing
import LectureQuiz.Proofs.Text.Lowercase
import LectureQuiz.Proofs.Text.Normalized

namespace LectureQuiz

open LectureQuiz.Text

theorem isBlankText_of_occurrence
    {text : String} {front word back : List Char}
    (occurs : text.toList = front ++ (trim word ++ back)) (notEmpty : trim word ≠ []) :
    isBlankText text = false := by
  rw [isBlankText, Bool.eq_false_iff, occurs]
  intro allBlank
  have wordBlank : ∀ character ∈ trim word, isBlank character = true := by
    intro character member
    apply List.all_eq_true.1 allBlank
    exact List.mem_append_right _ (List.mem_append_left _ member)
  have nothing : trim (trim word) = [] := strip_eq_nil_iff.2 wordBlank
  rw [trim, trim, strip_idempotent] at nothing
  exact notEmpty nothing

theorem Rule.speaks_of_occurrence
    {rule : Rule} {keyword text : String} {front back : List Char}
    (isKeyword : keyword ∈ rule.keywords) (notEmpty : trim keyword.toList ≠ [])
    (occurs : text.toList = front ++ (trim keyword.toList ++ back))
    (keeps : KeepsSigmas front (trim keyword.toList) back) :
    rule.Speaks text := by
  refine ⟨isBlankText_of_occurrence occurs notEmpty, keyword, isKeyword,
    lowercase_ne_nil notEmpty, ?_⟩
  rw [occurs]
  exact isInfix_lowercase keeps

/-- A rule of a set drafts an item from every segment of its module in whose text one
of its keywords stands, without the blanks at its ends, so that its capital sigmas
keep their form. -/
theorem RuleSet.mem_apply_of_occurrence
    {set : RuleSet} {rule : Rule} {keyword : String} {segment : Segment}
    {front back : List Char}
    (isRule : rule ∈ set.rules) (isKeyword : keyword ∈ rule.keywords)
    (notEmpty : trim keyword.toList ≠ []) (sameModule : segment.module = rule.module)
    (occurs : segment.text.toList = front ++ (trim keyword.toList ++ back))
    (keeps : KeepsSigmas front (trim keyword.toList) back) :
    rule.draft textFingerprint segment.text ∈ set.apply textFingerprint segment := by
  have speaks := Rule.speaks_of_occurrence isKeyword notEmpty occurs keeps
  exact mem_apply_iff_firesOn.2 ⟨rule, isRule, ⟨sameModule.symm, speaks⟩, rfl⟩

/-- A rule with a capital sigma for its keyword. -/
def sumRule : Rule where
  module := 7
  tag := "M7-SUM-"
  keywords := ["Σ"]
  question := "The sign Σ stands for a sum."
  answer := .trueFalse true
  explanation := ""
  tags := []

theorem mem_apply_of_sumSign :
    let set := (RuleSet.empty.extend [sumRule]).1
    let segment : Segment := ⟨"lec07", 7, none, none, "the sum Σx"⟩
    sumRule ∈ set.rules ∧ KeepsSigmas "the sum ".toList (trim "Σ".toList) "x".toList ∧
      sumRule.draft textFingerprint segment.text ∈
        set.apply textFingerprint segment := by
  intro set segment
  have isRule : sumRule ∈ set.rules := by decide +kernel
  have keeps : KeepsSigmas "the sum ".toList (trim "Σ".toList) "x".toList := by
    decide +kernel
  refine ⟨isRule, keeps, ?_⟩
  exact RuleSet.mem_apply_of_occurrence isRule (List.mem_singleton_self "Σ")
    (by decide +kernel) rfl (by decide +kernel) keeps

/-- Behind a letter and in front of none the sigma of the text is final, and the
keyword, which stands there as it is written, is not found. -/
theorem not_mem_apply_of_finalSigma :
    let set := (RuleSet.empty.extend [sumRule]).1
    let segment : Segment := ⟨"lec07", 7, none, none, "xΣ"⟩
    sumRule.validate = .ok () ∧ sumRule ∈ set.rules ∧ "Σ" ∈ sumRule.keywords ∧
      trim "Σ".toList ≠ [] ∧ segment.module = sumRule.module ∧
      trim "Σ".toList <:+: segment.text.toList ∧
      sumRule.draft textFingerprint segment.text ∉
        set.apply textFingerprint segment := by
  decide +kernel

end LectureQuiz
