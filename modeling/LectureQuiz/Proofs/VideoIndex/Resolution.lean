import Mathlib.Data.List.Induction
import LectureQuiz.Proofs.VideoIndex

namespace LectureQuiz

open LectureQuiz.Text

namespace VideoIndex

variable {index : VideoIndex} {entry : VideoEntry} {id stem : String}

theorem videoId_of_get? (found : index.get? id = some entry) :
    entry.videoId = id := by
  rw [get?] at found
  simpa using List.find?_some found

theorem get?_insert (index : VideoIndex) (entry : VideoEntry) (id : String) :
    (index.insert entry).get? id =
      if entry.videoId = id then some entry else index.get? id := by
  rw [get?, insert]
  by_cases same : entry.videoId = id
  · simp [same]
  · have others (other : VideoEntry) :
        decide (other.videoId ≠ entry.videoId ∧ other.videoId = id) =
          (other.videoId == id) := by
      by_cases isId : other.videoId = id
      · simp [isId, Ne.symm same]
      · simp [isId]
    simp [same, List.find?_filter, others, get?]

/-- Of the entries with an id the last one is kept. -/
theorem get?_ofEntries (entries : List VideoEntry) (id : String) :
    (ofEntries entries).get? id =
      (entries.filter (·.videoId == id)).getLast? := by
  induction entries using List.reverseRecOn with
  | nil => rfl
  | append_singleton entries last inductionHypothesis =>
      rw [ofEntries, List.foldl_append, List.foldl_cons, List.foldl_nil, ← ofEntries,
        get?_insert, inductionHypothesis, List.filter_append]
      by_cases same : last.videoId = id
      · simp [same]
      · simp [same]

/-- Every entry is kept under its own id. -/
theorem get?_videoId (member : entry ∈ index.entries) :
    index.get? entry.videoId = some entry := by
  rw [get?, List.find?_eq_some_iff_append]
  obtain ⟨before, after, whole⟩ := List.append_of_mem member
  refine ⟨beq_self_eq_true _, before, after, whole, fun other isBefore => ?_⟩
  have distinct := index.distinct
  rw [whole, List.map_append, List.map_cons] at distinct
  have apart := (List.nodup_append.1 distinct).2.2 other.videoId
    (List.mem_map_of_mem isBefore) entry.videoId List.mem_cons_self
  simpa using apart

theorem resolve_of_get? (found : index.get? stem = some entry) :
    index.resolve stem = (entry, .exact) := by
  rw [resolve, found]

theorem resolve_of_get?_slug
    (unknown : index.get? stem = none) (found : index.get? (slug stem) = some entry) :
    index.resolve stem = (entry, .bySlug) := by
  rw [resolve, unknown, found]

theorem resolve_of_unknown
    (unknown : index.get? stem = none) (unknownSlug : index.get? (slug stem) = none) :
    index.resolve stem =
      (syntheticEntry stem (if slug stem = "" then stem else slug stem), .synthetic) := by
  rw [resolve, unknown, unknownSlug]

/-- An id that no entry has is resolved to itself if its slug is empty or itself. -/
theorem resolve_of_unknown_id
    (unknown : index.get? id = none) (unknownSlug : index.get? (slug id) = none)
    (isOwnSlug : slug id = "" ∨ slug id = id) :
    index.resolve id = (syntheticEntry id id, .synthetic) := by
  rw [resolve_of_unknown unknown unknownSlug]
  rcases isOwnSlug with isEmpty | same
  · rw [if_pos isEmpty]
  · rw [same, ite_self]

theorem resolve_resolved (index : VideoIndex) (stem : String) :
    let found := index.resolve stem
    index.resolve found.1.videoId =
      if found.2 = .synthetic then
        (syntheticEntry found.1.videoId found.1.videoId, .synthetic)
      else (found.1, .exact) := by
  cases known : index.get? stem with
  | some entry =>
      rw [resolve_of_get? known]
      dsimp only
      rw [videoId_of_get? known, resolve_of_get? known, if_neg nofun]
  | none =>
  cases knownSlug : index.get? (slug stem) with
  | some entry =>
      rw [resolve_of_get?_slug known knownSlug]
      dsimp only
      rw [videoId_of_get? knownSlug, resolve_of_get? knownSlug, if_neg nofun]
  | none =>
      rw [resolve_of_unknown known knownSlug]
      dsimp only [syntheticEntry]
      rw [if_pos rfl]
      by_cases isEmpty : slug stem = ""
      · rw [if_pos isEmpty]
        exact resolve_of_unknown_id known knownSlug (Or.inl isEmpty)
      · have again := slug_slug stem
        rw [if_neg isEmpty]
        exact resolve_of_unknown_id knownSlug (again.symm ▸ knownSlug) (Or.inr again)

/-- An index that was filled entry by entry has the last entry of each id, every one
under its own id. The id of the entry for a name is resolved to an entry with this id:
to the same entry as the id of an entry of the index, or, when the entry was made up,
to one that is made up again. -/
theorem resolve_videoId_of_ofEntries (entries : List VideoEntry) (stem : String) :
    let index := ofEntries entries
    let found := index.resolve stem
    let again := index.resolve found.1.videoId
    (∀ id, index.get? id = (entries.filter (·.videoId == id)).getLast?) ∧
      (∀ kept ∈ index.entries, index.get? kept.videoId = some kept) ∧
      again.1.videoId = found.1.videoId ∧
      again = if found.2 = .synthetic then
          (syntheticEntry found.1.videoId found.1.videoId, .synthetic)
        else (found.1, .exact) := by
  intro index found again
  have resolved := resolve_resolved index stem
  refine ⟨get?_ofEntries entries, fun kept member => get?_videoId member, ?_, resolved⟩
  dsimp only [again]
  rw [resolved]
  split <;> rfl

end VideoIndex

end LectureQuiz
