import Mathlib.Data.List.Induction
import LectureQuiz.Proofs.QuizSet.Groups

namespace LectureQuiz

open ModuleGroups

theorem groupByModule_concat (items : List Item) (item : Item) :
    groupByModule (items ++ [item]) = (groupByModule items).add item := by
  rw [groupByModule, List.foldl_append]
  rfl

theorem keys_groupByModule (items : List Item) :
    (groupByModule items).map Prod.fst = (items.map Item.module).eraseDups := by
  induction items using List.reverseRecOn with
  | nil => rfl
  | append_singleton items item inductionHypothesis =>
      rw [groupByModule_concat, keys_add, inductionHypothesis, List.map_append,
        List.eraseDups_append, List.map_singleton, List.cons_removeAll]
      by_cases known : item.module ∈ items.map Item.module
      · have isKey := List.mem_eraseDups.2 known
        have noRest : (items.map Item.module).contains item.module = true :=
          List.contains_iff_mem.2 known
        rw [if_pos isKey, noRest]
        simp [List.removeAll]
      · have noKey := mt List.mem_eraseDups.1 known
        have isRest : (items.map Item.module).contains item.module = false := by
          simpa using known
        rw [if_neg noKey, isRest]
        simp [List.removeAll, List.eraseDups_cons]

namespace ModuleGroups

/-- An item of the last group's module goes to the end of that group. -/
theorem add_concat
    {groups : ModuleGroups} {module : UInt32} {group : List Item} {item : Item}
    (unknown : module ∉ groups.map Prod.fst) (isMember : item.module = module) :
    ModuleGroups.add (groups ++ [(module, group)]) item =
      groups ++ [(module, group ++ [item])] := by
  induction groups with
  | nil => simp [add, isMember]
  | cons first rest inductionHypothesis =>
      obtain ⟨firstModule, firstItems⟩ := first
      rw [List.map_cons, List.mem_cons, not_or] at unknown
      have apart : firstModule ≠ item.module := isMember ▸ Ne.symm unknown.1
      rw [List.cons_append, add, if_neg apart, inductionHypothesis unknown.2,
        List.cons_append]

/-- An item of a new module opens a group at the end. -/
theorem add_of_unknown
    {groups : ModuleGroups} {item : Item}
    (unknown : item.module ∉ groups.map Prod.fst) :
    groups.add item = groups ++ [(item.module, [item])] := by
  induction groups with
  | nil => rfl
  | cons first rest inductionHypothesis =>
      obtain ⟨firstModule, firstItems⟩ := first
      rw [List.map_cons, List.mem_cons, not_or] at unknown
      rw [add, if_neg (Ne.symm unknown.1), inductionHypothesis unknown.2,
        List.cons_append]

theorem foldl_add_concat
    {groups : ModuleGroups} {module : UInt32} {group items : List Item}
    (unknown : module ∉ groups.map Prod.fst)
    (areMembers : ∀ item ∈ items, item.module = module) :
    items.foldl add (groups ++ [(module, group)]) =
      groups ++ [(module, group ++ items)] := by
  induction items generalizing group with
  | nil => rw [List.foldl_nil, List.append_nil]
  | cons item rest inductionHypothesis =>
      obtain ⟨isMember, areRest⟩ := List.forall_mem_cons.1 areMembers
      rw [List.foldl_cons, add_concat unknown isMember, inductionHypothesis areRest,
        List.append_assoc, List.singleton_append]

/-- The groups have different modules, and each holds some items of its module and no
others. -/
structure IsPartition (groups : ModuleGroups) : Prop where
  distinct : (groups.map Prod.fst).Nodup
  notEmpty : ∀ group ∈ groups, group.2 ≠ []
  module_eq : ∀ group ∈ groups, ∀ item ∈ group.2, item.module = group.1

theorem foldl_add_flatMap
    {done groups : ModuleGroups} (isPartition : IsPartition (done ++ groups)) :
    (groups.flatMap Prod.snd).foldl add done = done ++ groups := by
  induction groups generalizing done with
  | nil => rw [List.flatMap_nil, List.foldl_nil, List.append_nil]
  | cons group rest inductionHypothesis =>
      obtain ⟨module, items⟩ := group
      have isHere : (module, items) ∈ done ++ (module, items) :: rest :=
        List.mem_append_right done List.mem_cons_self
      have notEmpty := isPartition.notEmpty _ isHere
      have areMembers := isPartition.module_eq _ isHere
      have unknown : module ∉ done.map Prod.fst := by
        have distinct := isPartition.distinct
        rw [List.map_append, List.map_cons, List.nodup_append] at distinct
        exact fun known => distinct.2.2 module known module List.mem_cons_self rfl
      have grouped : items.foldl add done = done ++ [(module, items)] := by
        obtain ⟨first, more, rfl⟩ := List.exists_cons_of_ne_nil notEmpty
        obtain ⟨isFirst, areMore⟩ := List.forall_mem_cons.1 areMembers
        dsimp only at isFirst
        rw [List.foldl_cons, add_of_unknown (isFirst ▸ unknown), isFirst,
          foldl_add_concat unknown areMore, List.singleton_append]
      rw [List.append_cons] at isPartition ⊢
      rw [List.flatMap_cons, List.foldl_append, grouped, inductionHypothesis isPartition]

end ModuleGroups

theorem isPartition_groupByModule (items : List Item) :
    IsPartition (groupByModule items) where
  distinct := (holds_groupByModule items).distinct
  notEmpty := fun _ member => ((holds_groupByModule items).mem_iff.1 member).1
  module_eq := by
    intro group member item isItem
    rw [((holds_groupByModule items).mem_iff.1 member).2, itemsOf,
      List.mem_filter] at isItem
    simpa using isItem.2

/-- Grouping is a stable partition: the modules of the groups are the distinct modules
of the items in the order of first occurrence, and the group of a module holds its items
in their order, of which there are some. What was grouped is grouped as it is. -/
theorem groupByModule_partitions (items : List Item) :
    let modules := (items.map Item.module).eraseDups
    (groupByModule items).map Prod.fst = modules ∧
      (groupByModule items).map Prod.snd =
        modules.map (fun module => items.filter (·.module == module)) ∧
      [] ∉ (groupByModule items).map Prod.snd ∧
      groupByModule ((groupByModule items).flatMap Prod.snd) = groupByModule items := by
  intro modules
  have holds := holds_groupByModule items
  refine ⟨keys_groupByModule items, ?_, ?_, ?_⟩
  · have areKeys : modules = (groupByModule items).map Prod.fst :=
      (keys_groupByModule items).symm
    rw [areKeys, List.map_map]
    exact List.map_congr_left fun group member => (holds.mem_iff.1 member).2
  · intro isEmpty
    obtain ⟨group, member, noItems⟩ := List.mem_map.1 isEmpty
    exact (holds.mem_iff.1 member).1 noItems
  · exact @foldl_add_flatMap [] _ (isPartition_groupByModule items)

end LectureQuiz
