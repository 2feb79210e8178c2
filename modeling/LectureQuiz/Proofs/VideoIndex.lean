import LectureQuiz.Proofs.Text.Slug
import LectureQuiz.VideoIndex

namespace LectureQuiz

open LectureQuiz.Text

namespace VideoIndex

/-- The id can be used in the name of a file. -/
def IsSafeId (id : String) : Prop :=
  id ≠ "" ∧ '/' ∉ id.toList

theorem isSafeId_resolve
    {index : VideoIndex} (safe : ∀ entry ∈ index.entries, IsSafeId entry.videoId)
    {stem : String} (safeStem : IsSafeId stem) :
    IsSafeId (index.resolve stem).1.videoId := by
  rw [resolve]
  split
  · rename_i entry found
    exact safe entry (List.mem_of_find?_eq_some found)
  split
  · rename_i entry found
    exact safe entry (List.mem_of_find?_eq_some found)
  · by_cases isEmpty : slug stem = ""
    · simpa [syntheticEntry, isEmpty] using safeStem
    · simpa [syntheticEntry, isEmpty, IsSafeId] using slash_not_mem_slug stem

end VideoIndex

end LectureQuiz
