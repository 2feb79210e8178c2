import LectureQuiz.Rule

namespace LectureQuiz.Bank

/-- A drafted item and the text it was drafted from. -/
structure Draft where
  text : String
  item : Item
  deriving DecidableEq, Repr

/-- The segments by increasing module; those of one module keep their order. -/
def byModule (segments : List Segment) : List Segment :=
  segments.mergeSort fun first second => first.module ≤ second.module

/-- All drafts of a list of segments, in order. -/
def drafts
    (fingerprint : String → Nat) (rules : RuleSet) (segments : List Segment) :
    List Draft :=
  segments.flatMap fun segment =>
    (rules.apply fingerprint segment).map (Draft.mk segment.text)

/-- The items of the drafts whose id and text are new. -/
def firstOccurrences
    (seen : List (String × String)) : List Draft → List Item
  | [] => []
  | draft :: rest =>
      if (draft.item.id, draft.text) ∈ seen then
        firstOccurrences seen rest
      else
        draft.item :: firstOccurrences ((draft.item.id, draft.text) :: seen) rest

/-- The bank for any way of telling texts apart in item ids. -/
def generateWith
    (fingerprint : String → Nat) (rules : RuleSet) (segments : List Segment) :
    List Item :=
  firstOccurrences [] (drafts fingerprint rules (byModule segments))

/-- The draft bank of a list of segments. -/
def generate (rules : RuleSet) (segments : List Segment) : List Item :=
  generateWith textFingerprint rules segments

end LectureQuiz.Bank
