import Mathlib.Data.List.Basic
import Mathlib.Data.List.Induction
import LectureQuiz.Proofs.Bank.ByModule
import LectureQuiz.Proofs.Rule.Firing

/-!
# Banks from firing rules

Going through the segments by module, and for each of them through the rules that
fire on it, the bank has an item of every rule and segment unless the same tag and
the same text came before. Ids play no part in this, so it does not matter which
texts share a number.
-/

namespace LectureQuiz.Bank

section Firsts

variable {alpha : Type} {same : alpha → alpha → Prop} [DecidableRel same]

/-- Whether the element at a place of a list is not the same as any in front of it. -/
def isFirst (same : alpha → alpha → Prop) [DecidableRel same] (items : List alpha)
    (placed : alpha × Nat) : Bool :=
  ∀ earlier ∈ items.take placed.2, ¬same earlier placed.1

/-- The elements of a list that are not the same as any in front of them. -/
def firsts (same : alpha → alpha → Prop) [DecidableRel same] (items : List alpha) :
    List alpha :=
  (items.zipIdx.filter (isFirst same items)).map Prod.fst

theorem firsts_concat (items : List alpha) (item : alpha) :
    firsts same (items ++ [item]) =
      firsts same items ++
        if ∃ earlier ∈ items, same earlier item then [] else [item] := by
  have inFront : items.zipIdx.filter (isFirst same (items ++ [item])) =
      items.zipIdx.filter (isFirst same items) := by
    apply List.filter_congr
    intro placed member
    have inside := (List.mem_zipIdx' member).1
    rw [isFirst, isFirst, List.take_append_of_le_length (Nat.le_of_lt inside)]
  have atEnd : isFirst same (items ++ [item]) (item, items.length) = true ↔
      ¬∃ earlier ∈ items, same earlier item := by
    simp [isFirst]
  rw [firsts, firsts, List.zipIdx_append, List.filter_append, List.map_append,
    inFront, List.zipIdx_singleton, Nat.zero_add]
  congr 1
  by_cases isRepeated : ∃ earlier ∈ items, same earlier item
  · have notFirst := mt atEnd.1 (not_not_intro isRepeated)
    rw [if_pos isRepeated, List.filter_cons_of_neg notFirst]
    rfl
  · rw [if_neg isRepeated, List.filter_cons_of_pos (atEnd.2 isRepeated)]
    rfl

theorem firsts_sublist (items : List alpha) : (firsts same items).Sublist items := by
  have isSublist : (firsts same items).Sublist (items.zipIdx.map Prod.fst) :=
    List.filter_sublist.map Prod.fst
  rwa [List.zipIdx_map_fst] at isSublist

theorem firsts_prefix (items rest : List alpha) :
    firsts same items <+: firsts same (items ++ rest) := by
  induction rest using List.reverseRecOn with
  | nil => simp
  | append_singleton rest last inductionHypothesis =>
      rw [← List.append_assoc, firsts_concat]
      exact inductionHypothesis.trans (List.prefix_append _ _)

theorem pairwise_firsts (items : List alpha) :
    (firsts same items).Pairwise fun first second => ¬same first second := by
  induction items using List.reverseRecOn with
  | nil => exact List.Pairwise.nil
  | append_singleton items last inductionHypothesis =>
      rw [firsts_concat]
      by_cases isRepeated : ∃ earlier ∈ items, same earlier last
      · rw [if_pos isRepeated, List.append_nil]
        exact inductionHypothesis
      · rw [if_neg isRepeated, List.pairwise_append]
        refine ⟨inductionHypothesis, List.pairwise_singleton _ _, ?_⟩
        intro earlier isFirst other isLast isSame
        rw [List.mem_singleton.1 isLast] at isSame
        exact isRepeated ⟨earlier, (firsts_sublist items).subset isFirst, isSame⟩

/-- Every element of a list has a first one that is the same. -/
theorem exists_mem_firsts
    (refl : ∀ item, same item item)
    (trans : ∀ first second third, same first second → same second third →
      same first third)
    {items : List alpha} {item : alpha} (member : item ∈ items) :
    ∃ first ∈ firsts same items, same first item := by
  induction items using List.reverseRecOn generalizing item with
  | nil => exact absurd member List.not_mem_nil
  | append_singleton items last inductionHypothesis =>
      rw [firsts_concat]
      rcases List.mem_append.1 member with inFront | isLast
      · obtain ⟨first, isFirst, isSame⟩ := inductionHypothesis inFront
        exact ⟨first, List.mem_append_left _ isFirst, isSame⟩
      · obtain rfl := List.mem_singleton.1 isLast
        by_cases isRepeated : ∃ earlier ∈ items, same earlier item
        · obtain ⟨earlier, inFront, repeats⟩ := isRepeated
          obtain ⟨first, isFirst, isSame⟩ := inductionHypothesis inFront
          exact ⟨first, List.mem_append_left _ isFirst,
            trans first earlier item isSame repeats⟩
        · refine ⟨item, ?_, refl item⟩
          rw [if_neg isRepeated]
          exact List.mem_append_right _ (List.mem_singleton_self item)

end Firsts

/-- A segment and a rule that fires on it. -/
structure Firing where
  segment : Segment
  rule : Rule
  fires : rule.FiresOn segment

namespace Firing

variable {fingerprint : String → Nat} {first second : Firing}

def item (fingerprint : String → Nat) (firing : Firing) : Item :=
  firing.rule.draft fingerprint firing.segment.text

theorem id_item (firing : Firing) :
    (firing.item fingerprint).id =
      firing.rule.tag ++ toString (fingerprint firing.segment.text) := rfl

/-- The item of a firing rule, with its text. -/
def draft (fingerprint : String → Nat) (firing : Firing) : Draft :=
  ⟨firing.segment.text, firing.item fingerprint⟩

/-- Whether two rules have the same tag and fire on the same text. -/
def Repeats (first second : Firing) : Prop :=
  first.rule.tag = second.rule.tag ∧ first.segment.text = second.segment.text

instance : DecidableRel Repeats :=
  fun _ _ => inferInstanceAs (Decidable (_ ∧ _))

theorem repeats_refl (firing : Firing) : firing.Repeats firing :=
  ⟨rfl, rfl⟩

theorem repeats_trans (first second third : Firing)
    (firstRepeats : first.Repeats second) (secondRepeats : second.Repeats third) :
    first.Repeats third :=
  ⟨firstRepeats.1.trans secondRepeats.1, firstRepeats.2.trans secondRepeats.2⟩

instance : Std.Symm fun first second : Firing => ¬first.Repeats second where
  symm _ _ differ repeats := differ ⟨repeats.1.symm, repeats.2.symm⟩

/-- One text has one number. So ids tell the tags of rules apart that fire on the
same text, even if they do not tell texts apart. -/
theorem repeats_iff :
    first.Repeats second ↔
      ((first.draft fingerprint).item.id, (first.draft fingerprint).text) =
        ((second.draft fingerprint).item.id, (second.draft fingerprint).text) := by
  rw [Prod.mk.injEq, Repeats, draft, draft, id_item, id_item]
  apply and_congr_left
  intro sameText
  rw [sameText]
  exact (String.append_left_inj _).symm

end Firing

/-- The rules of a list that fire on a segment, in their order. -/
def firingsOn (rules : List Rule) (segment : Segment) : List Firing :=
  rules.filterMap fun rule =>
    if fires : rule.FiresOn segment then some ⟨segment, rule, fires⟩ else none

/-- The segments in their order with the rules that fire on them, in the order of the
rules. -/
def firings (rules : RuleSet) (segments : List Segment) : List Firing :=
  segments.flatMap (firingsOn rules.rules)

variable {fingerprint : String → Nat} {rules : RuleSet} {segments : List Segment}

theorem mem_firingsOn {rules : List Rule} {segment : Segment} {firing : Firing} :
    firing ∈ firingsOn rules segment ↔
      firing.rule ∈ rules ∧ firing.segment = segment := by
  rw [firingsOn, List.mem_filterMap]
  constructor
  · rintro ⟨rule, isRule, isFiring⟩
    split at isFiring
    · cases isFiring
      exact ⟨isRule, rfl⟩
    · contradiction
  · rintro ⟨isRule, rfl⟩
    exact ⟨firing.rule, isRule, dif_pos firing.fires⟩

/-- Rules fire on segments of their own module. -/
theorem module_item_of_mem_firingsOn
    {rules : List Rule} {segment : Segment} {firing : Firing}
    (member : firing ∈ firingsOn rules segment) :
    (firing.item fingerprint).module = segment.module := by
  rw [← (mem_firingsOn.1 member).2]
  exact firing.fires.1

theorem mem_firings {firing : Firing} :
    firing ∈ firings rules segments ↔
      firing.rule ∈ rules.rules ∧ firing.segment ∈ segments := by
  simp only [firings, List.mem_flatMap, mem_firingsOn]
  constructor
  · rintro ⟨segment, isSegment, isRule, rfl⟩
    exact ⟨isRule, isSegment⟩
  · rintro ⟨isRule, isSegment⟩
    exact ⟨firing.segment, isSegment, isRule, rfl⟩

theorem apply_eq_map_firingsOn {segment : Segment} :
    rules.apply fingerprint segment =
      (firingsOn rules.rules segment).map (Firing.item fingerprint) := by
  rw [RuleSet.apply_eq_map_filter, firingsOn]
  induction rules.rules with
  | nil => rfl
  | cons rule rest inductionHypothesis =>
      by_cases fires : rule.FiresOn segment
      · simp [fires, inductionHypothesis, Firing.item]
      · simp [fires, inductionHypothesis]

theorem drafts_eq_map_firings :
    drafts fingerprint rules segments =
      (firings rules segments).map (Firing.draft fingerprint) := by
  rw [drafts, firings, List.map_flatMap]
  apply List.flatMap_congr
  intro segment _
  rw [apply_eq_map_firingsOn, List.map_map]
  apply List.map_congr_left
  intro firing member
  rw [Function.comp_apply, ← (mem_firingsOn.1 member).2]
  rfl

theorem firstOccurrences_concat
    (seen : List (String × String)) (drafts : List Draft) (draft : Draft) :
    firstOccurrences seen (drafts ++ [draft]) =
      firstOccurrences seen drafts ++
        if (draft.item.id, draft.text) ∈ seen ∨
            ∃ earlier ∈ drafts,
              (earlier.item.id, earlier.text) = (draft.item.id, draft.text) then []
        else [draft.item] := by
  induction drafts generalizing seen with
  | nil => simp [firstOccurrences]
  | cons first rest inductionHypothesis =>
      rw [List.cons_append, firstOccurrences, firstOccurrences, inductionHypothesis,
        inductionHypothesis]
      by_cases isSeen : (first.item.id, first.text) ∈ seen
      · rw [if_pos isSeen, if_pos isSeen]
        congr 1
        refine if_congr ?_ rfl rfl
        rw [List.exists_mem_cons_iff, ← or_assoc]
        refine or_congr_left ⟨Or.inl, fun known => known.elim id ?_⟩
        exact fun equal => equal ▸ isSeen
      · rw [if_neg isSeen, if_neg isSeen, List.cons_append]
        congr 2
        refine if_congr ?_ rfl rfl
        rw [List.mem_cons, List.exists_mem_cons_iff, or_assoc, or_left_comm,
          eq_comm (a := (draft.item.id, draft.text))]

theorem firstOccurrences_drafts (firings : List Firing) :
    firstOccurrences [] (firings.map (Firing.draft fingerprint)) =
      (firsts Firing.Repeats firings).map (Firing.item fingerprint) := by
  induction firings using List.reverseRecOn with
  | nil => rfl
  | append_singleton earlier last inductionHypothesis =>
      rw [List.map_append, List.map_singleton, firstOccurrences_concat,
        inductionHypothesis, firsts_concat, List.map_append]
      congr 1
      have isKnown :
          ((last.draft fingerprint).item.id, (last.draft fingerprint).text) ∈
                ([] : List (String × String)) ∨
              (∃ draft ∈ earlier.map (Firing.draft fingerprint),
                (draft.item.id, draft.text) =
                  ((last.draft fingerprint).item.id, (last.draft fingerprint).text)) ↔
            ∃ firing ∈ earlier, firing.Repeats last := by
        simp only [List.not_mem_nil, false_or, List.mem_map,
          exists_exists_and_eq_and, ← Firing.repeats_iff]
      rw [apply_ite (List.map (Firing.item fingerprint))]
      exact if_congr isKnown rfl rfl

theorem generateWith_eq_map_firsts :
    generateWith fingerprint rules segments =
      (firsts Firing.Repeats (firings rules (byModule segments))).map
        (Firing.item fingerprint) := by
  rw [generateWith, drafts_eq_map_firings, firstOccurrences_drafts]

theorem increasing_firings
    (fingerprint : String → Nat) (rules : RuleSet)
    (increasing : segments.Pairwise fun first second =>
      first.module ≤ second.module) :
    (firings rules segments).Pairwise fun first second =>
      (first.item fingerprint).module ≤ (second.item fingerprint).module := by
  rw [firings, List.pairwise_flatMap]
  constructor
  · intro segment _
    apply List.pairwise_of_forall_mem_list
    intro first inFirst second inSecond
    rw [module_item_of_mem_firingsOn inFirst, module_item_of_mem_firingsOn inSecond]
    exact UInt32.le_refl _
  · apply increasing.imp
    intro earlier later less first inFirst second inSecond
    rw [module_item_of_mem_firingsOn inFirst, module_item_of_mem_firingsOn inSecond]
    exact less

/-- The bank has the items of the first firing rules of every tag on every text, where
the segments are gone through by increasing module and otherwise as they come. This
is so for all numbers that texts may have in ids. No text is passed over for another
one, and the modules of the bank increase. -/
theorem generateWith_of_firings
    (fingerprint : String → Nat) (rules : RuleSet) (segments : List Segment) :
    ∃ ordered, IsByModule segments ordered ∧
      (∀ other, IsByModule segments other → other = ordered) ∧
      generateWith fingerprint rules segments =
        (firsts Firing.Repeats (firings rules ordered)).map
          (Firing.item fingerprint) ∧
      (∀ firing ∈ firings rules ordered,
        ∃ first ∈ firsts Firing.Repeats (firings rules ordered),
          first.rule.tag = firing.rule.tag ∧
            first.segment.text = firing.segment.text) ∧
      (generateWith fingerprint rules segments).Pairwise fun first second =>
        first.module ≤ second.module := by
  refine ⟨byModule segments, isByModule_byModule segments, ?_,
    generateWith_eq_map_firsts, ?_, ?_⟩
  · exact fun other isByModule => isByModule.eq_byModule
  · intro firing member
    exact exists_mem_firsts Firing.repeats_refl Firing.repeats_trans member
  · rw [generateWith_eq_map_firsts, List.pairwise_map]
    have increasing :=
      increasing_firings fingerprint rules (increasing_byModule segments)
    exact increasing.sublist (firsts_sublist _)

end LectureQuiz.Bank
