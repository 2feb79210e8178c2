import Mathlib.Data.List.Nodup

namespace LectureQuiz

theorem mem_iff_lookup_eq
    {alpha beta : Type} [BEq alpha] [LawfulBEq alpha]
    {entries : List (alpha × beta)} (distinct : (entries.map Prod.fst).Nodup)
    {key : alpha} {value : beta} :
    (key, value) ∈ entries ↔ entries.lookup key = some value := by
  induction entries with
  | nil => simp
  | cons entry rest inductionHypothesis =>
      obtain ⟨first, firstValue⟩ := entry
      have ⟨isNew, restDistinct⟩ := List.nodup_cons.1 distinct
      by_cases same : key = first
      · subst same
        have notLater : (key, value) ∉ rest := fun later =>
          isNew (List.mem_map.2 ⟨_, later, rfl⟩)
        simp [notLater, eq_comm]
      · have apart : (key == first) = false := by simpa using same
        simp [List.lookup_cons, apart, same, inductionHypothesis restDistinct]

theorem lookup_eq_none_iff_not_mem
    {alpha beta : Type} [BEq alpha] [LawfulBEq alpha]
    {entries : List (alpha × beta)} {key : alpha} :
    entries.lookup key = none ↔ key ∉ entries.map Prod.fst := by
  rw [List.lookup_eq_none_iff]
  simp only [bne_iff_ne, List.mem_map, Prod.exists, exists_and_right]
  exact ⟨fun apart ⟨_, ⟨_, member⟩, same⟩ => apart _ member same.symm,
    fun absent entry member same => absent ⟨_, ⟨_, member⟩, same.symm⟩⟩

end LectureQuiz
