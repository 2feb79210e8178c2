/-!
# Sets of tags

A set of tags is kept as its members in increasing order, so that two sets with
the same members are equal and are written in the same way. Texts are ordered by
code points.
-/

namespace LectureQuiz

structure TagSet where
  toList : List String
  increasing : toList.Pairwise (· < ·)
  deriving DecidableEq

namespace TagSet

instance : Repr TagSet where
  reprPrec tags precedence := reprPrec tags.toList precedence

theorem ext_toList {first second : TagSet}
    (equal : first.toList = second.toList) : first = second := by
  cases first
  cases second
  simpa using equal

def empty : TagSet := ⟨[], .nil⟩

/-- Puts a tag at its place in an increasing list, unless it is there. -/
def insertSorted (tag : String) : List String → List String
  | [] => [tag]
  | first :: rest =>
      if tag < first then tag :: first :: rest
      else if tag = first then first :: rest
      else first :: insertSorted tag rest

theorem mem_insertSorted
    {tag member : String} {tags : List String} :
    member ∈ insertSorted tag tags ↔ member = tag ∨ member ∈ tags := by
  induction tags with
  | nil => simp [insertSorted]
  | cons first rest inductionHypothesis =>
      unfold insertSorted
      split
      · simp
      · split
        · rename_i _ equal
          subst equal
          simp
        · simp only [List.mem_cons, inductionHypothesis]
          grind

theorem increasing_insertSorted
    (tag : String) {tags : List String} (increasing : tags.Pairwise (· < ·)) :
    (insertSorted tag tags).Pairwise (· < ·) := by
  induction tags with
  | nil => simp [insertSorted]
  | cons first rest inductionHypothesis =>
      have ⟨firstLess, restIncreasing⟩ := List.pairwise_cons.1 increasing
      unfold insertSorted
      split
      · rename_i less
        refine List.pairwise_cons.2 ⟨?_, increasing⟩
        intro member isMember
        rcases List.mem_cons.1 isMember with rfl | inRest
        · exact less
        · exact String.lt_trans less (firstLess member inRest)
      · split
        · exact increasing
        · rename_i notLess notEqual
          refine List.pairwise_cons.2
            ⟨?_, inductionHypothesis restIncreasing⟩
          intro member isMember
          rcases mem_insertSorted.1 isMember with rfl | inRest
          · grind
          · exact firstLess member inRest

def insert (tag : String) (tags : TagSet) : TagSet :=
  ⟨insertSorted tag tags.toList, increasing_insertSorted tag tags.increasing⟩

/-- The set of the listed tags, whatever their order and repetitions. -/
def ofList (tags : List String) : TagSet :=
  tags.foldr insert empty

theorem mem_ofList {tag : String} {tags : List String} :
    tag ∈ (ofList tags).toList ↔ tag ∈ tags := by
  induction tags with
  | nil => simp [ofList, empty]
  | cons first rest inductionHypothesis =>
      simp only [ofList, List.foldr_cons, insert, mem_insertSorted,
        List.mem_cons]
      rw [← inductionHypothesis, ofList]

end TagSet

end LectureQuiz
