import LectureQuiz.Proofs.Lookup
import LectureQuiz.QuizSet.Pack

namespace LectureQuiz

/-- The items of one module, in their order. -/
def itemsOf (module : UInt32) (items : List Item) : List Item :=
  items.filter (·.module == module)

theorem itemsOf_append_singleton
    (module : UInt32) (items : List Item) (item : Item) :
    itemsOf module (items ++ [item]) =
      if module = item.module then itemsOf module items ++ [item]
      else itemsOf module items := by
  by_cases same : module = item.module
  · simp [itemsOf, same]
  · simp [itemsOf, same, Ne.symm same]

theorem itemsOf_filter_all
    (selected : Option UInt32) (module : UInt32) (items : List Item) :
    itemsOf module (items.filter fun item => selected.all (item.module == ·)) =
      if selected.all (module == ·) then itemsOf module items else [] := by
  induction items with
  | nil => simp [itemsOf]
  | cons item rest inductionHypothesis =>
      rw [itemsOf] at inductionHypothesis ⊢
      by_cases same : item.module = module
      · cases kept : selected.all (module == ·) <;>
          simp_all [itemsOf]
      · cases kept : selected.all (item.module == ·) <;>
          simp_all [itemsOf]

namespace ModuleGroups

theorem keys_add (groups : ModuleGroups) (item : Item) :
    (groups.add item).map Prod.fst =
      if item.module ∈ groups.map Prod.fst then groups.map Prod.fst
      else groups.map Prod.fst ++ [item.module] := by
  induction groups with
  | nil => simp [add]
  | cons group rest inductionHypothesis =>
      obtain ⟨module, items⟩ := group
      rw [add]
      by_cases same : module = item.module
      · simp [same]
      · rw [if_neg same, List.map_cons, inductionHypothesis]
        by_cases known : item.module ∈ rest.map Prod.fst
        · simp [known]
        · simp [known, Ne.symm same]

theorem lookup_add (groups : ModuleGroups) (item : Item) (module : UInt32) :
    (groups.add item).lookup module =
      if module = item.module then some ((groups.lookup module).getD [] ++ [item])
      else groups.lookup module := by
  induction groups with
  | nil => by_cases same : module = item.module <;> simp [add, same]
  | cons group rest inductionHypothesis =>
      obtain ⟨first, items⟩ := group
      rw [add]
      by_cases here : first = item.module
      · by_cases same : module = item.module
        · simp [here, same]
        · have apart : (module == item.module) = false := by simpa using same
          simp [here, same, List.lookup_cons, apart]
      · rw [if_neg here, List.lookup_cons, List.lookup_cons, inductionHypothesis]
        by_cases found : module = first
        · subst found
          simp [here]
        · have apart : (module == first) = false := by simpa using found
          simp only [apart]

/-- There is one group for each module of the items, and it holds all items of
the module. -/
structure Holds (groups : ModuleGroups) (items : List Item) : Prop where
  distinct : (groups.map Prod.fst).Nodup
  lookup_eq : ∀ module, groups.lookup module =
    if itemsOf module items = [] then none else some (itemsOf module items)

theorem Holds.add
    {groups : ModuleGroups} {items : List Item} (holds : groups.Holds items)
    (item : Item) : (groups.add item).Holds (items ++ [item]) := by
  refine ⟨?_, ?_⟩
  · rw [keys_add]
    split
    · exact holds.distinct
    · rename_i unknown
      rw [← List.concat_eq_append, List.nodup_concat]
      exact ⟨unknown, holds.distinct⟩
  · intro module
    rw [lookup_add, holds.lookup_eq, itemsOf_append_singleton]
    by_cases same : module = item.module
    · subst same
      by_cases none : itemsOf item.module items = []
      · simp [none]
      · simp [none]
    · simp [same]

theorem Holds.foldl
    {groups : ModuleGroups} {done : List Item} (holds : groups.Holds done)
    (items : List Item) : (items.foldl ModuleGroups.add groups).Holds (done ++ items) := by
  induction items generalizing groups done with
  | nil => simpa using holds
  | cons item rest inductionHypothesis =>
      simpa using inductionHypothesis (holds.add item)

theorem Holds.mem_iff
    {groups : ModuleGroups} {items : List Item} (holds : groups.Holds items)
    {module : UInt32} {group : List Item} :
    (module, group) ∈ groups ↔ group ≠ [] ∧ group = itemsOf module items := by
  rw [mem_iff_lookup_eq holds.distinct, holds.lookup_eq]
  by_cases none : itemsOf module items = []
  · simp [none]
  · simp only [none, if_false, Option.some.injEq]
    constructor
    · rintro rfl
      exact ⟨none, rfl⟩
    · exact fun ⟨_, same⟩ => same.symm

end ModuleGroups

theorem holds_groupByModule (items : List Item) :
    (groupByModule items).Holds items := by
  have none : ModuleGroups.Holds [] [] := ⟨List.nodup_nil, fun _ => rfl⟩
  exact none.foldl items

end LectureQuiz
