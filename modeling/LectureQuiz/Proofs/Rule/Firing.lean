import LectureQuiz.Proofs.Rule

namespace LectureQuiz

open LectureQuiz.Text

theorem occursIn_iff {pattern text : List Char} :
    occursIn pattern text = true ↔ pattern <:+: text := by
  induction text with
  | nil => simp [occursIn]
  | cons character rest inductionHypothesis =>
      rw [occursIn, Bool.or_eq_true, List.isPrefixOf_iff_prefix,
        inductionHypothesis, List.infix_cons_iff]

namespace Rule

variable {rule : Rule} {segment : Segment}

/-- Whether a text is not blank and one of the keywords that are not blank occurs in
its lower-case form. -/
def Speaks (rule : Rule) (text : String) : Prop :=
  isBlankText text = false ∧
    ∃ keyword ∈ rule.keywords, searchForm keyword ≠ [] ∧
      searchForm keyword <:+: lowercase text.toList

/-- Whether a rule drafts an item from a segment. -/
def FiresOn (rule : Rule) (segment : Segment) : Prop :=
  rule.module = segment.module ∧ rule.Speaks segment.text

theorem fires_iff {text : String} :
    rule.fires (lowercased text) = true ↔
      ∃ keyword ∈ rule.keywords, searchForm keyword ≠ [] ∧
        searchForm keyword <:+: lowercase text.toList := by
  rw [fires, List.any_eq_true, lowercased, String.toList_ofList]
  simp only [Bool.and_eq_true, occursIn_iff, Bool.not_eq_true',
    List.isEmpty_eq_false_iff]

theorem firesOn_iff :
    rule.FiresOn segment ↔
      rule.module = segment.module ∧ isBlankText segment.text = false ∧
        rule.fires (lowercased segment.text) = true := by
  rw [fires_iff]
  rfl

instance (rule : Rule) (segment : Segment) : Decidable (rule.FiresOn segment) :=
  decidable_of_iff' _ firesOn_iff

end Rule

namespace RuleSet

variable {fingerprint : String → Nat} {set : RuleSet} {segment : Segment} {item : Item}

theorem apply_eq_map_filter :
    set.apply fingerprint segment =
      (set.rules.filter (·.FiresOn segment)).map
        (·.draft fingerprint segment.text) := by
  rw [apply]
  by_cases blank : isBlankText segment.text = true
  · have silent : ∀ rule ∈ set.rules, ¬rule.FiresOn segment := by
      intro rule _ fires
      exact absurd blank (Bool.eq_false_iff.1 fires.2.1)
    rw [if_pos blank, List.filter_eq_nil_iff.2 (by simpa using silent), List.map_nil]
  · rw [if_neg blank]
    dsimp only
    congr 1
    apply List.filter_congr
    intro rule _
    rw [Bool.eq_iff_iff, decide_eq_true_iff, Rule.firesOn_iff]
    simp [blank]

theorem mem_apply_iff_firesOn :
    item ∈ set.apply fingerprint segment ↔
      ∃ rule ∈ set.rules, rule.FiresOn segment ∧
        rule.draft fingerprint segment.text = item := by
  rw [apply_eq_map_filter, List.mem_map]
  simp only [List.mem_filter, decide_eq_true_eq, and_assoc]

end RuleSet

end LectureQuiz
