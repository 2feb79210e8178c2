import LectureQuiz.Proofs.QuizSet.Repeat

namespace LectureQuiz

variable {session : Session} {folder : Path}

/-- The jobs succeed on the same terms, and then leave the same files and folders. -/
structure Job.Interchangeable {alpha beta : Type} (first : Job alpha)
    (second : Job beta) (tree : FileTree) : Prop where
  isOk_eq : (first.runOn tree).1.isOk = (second.runOn tree).1.isOk
  node?_eq : (first.runOn tree).1.isOk = true → ∀ place,
    (first.runOn tree).2.files.node? place = (second.runOn tree).2.files.node? place

/-- Packings in turn are told by the last group of each module. -/
theorem FileTree.Settled.interchangeable
    {tree : FileTree} (settled : tree.Settled folder)
    {requests others : List PackRequest}
    (same : ∀ module, PackRequest.lastGroup? requests module =
      PackRequest.lastGroup? others module) :
    (packInTurn folder requests).Interchangeable (packInTurn folder others) tree := by
  have sameGroups : PackRequest.lastGroup? requests = PackRequest.lastGroup? others :=
    funext same
  have isOk_eq : ((packInTurn folder requests).runOn tree).1.isOk =
      ((packInTurn folder others).runOn tree).1.isOk := by
    rw [Bool.eq_iff_iff, Job.isOk_runOn_iff, Job.isOk_runOn_iff, succeeds_packInTurn,
      succeeds_packInTurn, sameGroups]
  refine ⟨isOk_eq, ?_⟩
  intro isOk
  obtain ⟨_, run⟩ := Job.exists_of_isOk isOk
  obtain ⟨_, otherRun⟩ := Job.exists_of_isOk (isOk_eq ▸ isOk)
  exact node?_eq_of_packInTurn settled run otherRun same

theorem Job.Interchangeable.trans
    {alpha beta gamma : Type} {first : Job alpha} {second : Job beta}
    {third : Job gamma} {tree : FileTree} (left : first.Interchangeable second tree)
    (right : second.Interchangeable third tree) :
    first.Interchangeable third tree := by
  refine ⟨left.isOk_eq.trans right.isOk_eq, ?_⟩
  intro isOk place
  rw [left.node?_eq isOk place, right.node?_eq (left.isOk_eq ▸ isOk) place]

theorem packInTurn_singleton_interchangeable (request : PackRequest) (tree : FileTree) :
    (packInTurn folder [request]).Interchangeable
      (pack request.items folder request.selected) tree := by
  have sameRun : (packInTurn folder [request]).runOn tree =
      (((pack request.items folder request.selected).runOn tree).1.map ([·]),
        ((pack request.items folder request.selected).runOn tree).2) := by
    rw [packInTurn, List.mapM_cons, Job.runOn, Job.runOn, Job.run_bind]
    rcases ((pack request.items folder request.selected).run.run ⟨tree, []⟩ :
      Except Error Packing × Session) with ⟨error | packing, session⟩ <;> rfl
  constructor
  case isOk_eq =>
    rw [sameRun]
    cases ((pack request.items folder request.selected).runOn tree).1 <;> rfl
  case node?_eq =>
    intro _ place
    rw [sameRun]

namespace PackRequest

theorem group?_some (items : List Item) (selected module : UInt32) :
    group? ⟨items, some selected⟩ module =
      if module = selected then group? ⟨items, none⟩ module else none := by
  by_cases same : module = selected
  · simp [group?, deliveredItems, same]
  · simp [group?, deliveredItems, same]

theorem group?_eq_none_of_forall_ne
    {request : PackRequest} {module : UInt32}
    (absent : ∀ item ∈ request.items, item.module ≠ module) :
    request.group? module = none := by
  have noItems : itemsOf module request.items = [] := by
    rw [itemsOf, List.filter_eq_nil_iff]
    intro item member isModule
    exact absent item member (by simpa using isModule)
  rw [group?_eq_none_iff, deliveredItems, noItems, ite_self]

theorem lastGroup?_map_some (items : List Item) (order : List UInt32) (module : UInt32) :
    lastGroup? (order.map fun selected => ⟨items, some selected⟩) module =
      if module ∈ order then group? ⟨items, none⟩ module else none := by
  induction order with
  | nil => rfl
  | cons first rest inductionHypothesis =>
      rw [List.map_cons, lastGroup?, inductionHypothesis, group?_some]
      by_cases isFirst : module = first
      · rw [if_pos isFirst, if_pos (List.mem_cons.2 (Or.inl isFirst))]
        split
        · cases group? ⟨items, none⟩ module <;> rfl
        · rfl
      · simp [isFirst]

/-- No module is delivered by both requests. -/
def Apart (first second : PackRequest) : Prop :=
  ∀ item ∈ selectedItems first.selected first.items,
    ∀ other ∈ selectedItems second.selected second.items, item.module ≠ other.module

theorem Apart.group?_eq_none
    {first second : PackRequest} (apart : first.Apart second) (module : UInt32) :
    first.group? module = none ∨ second.group? module = none := by
  simp only [group?_eq_none_iff, ← itemsOf_selectedItems, itemsOf,
    List.filter_eq_nil_iff, beq_iff_eq]
  by_contra both
  push Not at both
  obtain ⟨⟨item, member, isModule⟩, other, isOther, isSame⟩ := both
  exact apart item member other isOther (isModule.trans isSame.symm)

theorem lastGroup?_comm
    {first second : PackRequest} (apart : first.Apart second) (module : UInt32) :
    lastGroup? [first, second] module = lastGroup? [second, first] module := by
  simp only [lastGroup?]
  rcases apart.group?_eq_none module with noFirst | noSecond
  · rw [noFirst]
    cases second.group? module <;> rfl
  · rw [noSecond]
    cases first.group? module <;> rfl

end PackRequest

/-- Packing the same once more gives the same packing, and changes nothing. -/
theorem FileTree.Settled.pack_again
    {tree : FileTree} (settled : tree.Settled folder) {request : PackRequest}
    {packing : Packing}
    (run : (pack request.items folder request.selected).runOn tree =
      (.ok packing, session)) :
    ∃ again, (pack request.items folder request.selected).runOn session.files =
        (.ok packing, again) ∧
      ∀ place, again.files.node? place = session.files.node? place := by
  have repeats := repeats_pack settled.isPacked_of_created (Job.yields_iff_runOn.2 run)
  obtain ⟨again, yields, like⟩ := repeats ⟨session.files, []⟩ (.refl _)
  exact ⟨again, Job.yields_iff_runOn.1 yields, like⟩

/-- Packing the modules of some items one by one leaves what packing all items
leaves, whatever the order of the modules. Packings of different modules can be
exchanged, and packing the same once more changes nothing. -/
theorem PackHistory.packings_in_any_order
    {tree : FileTree} (history : PackHistory folder tree) :
    (∀ (items : List Item) (order : List UInt32),
      (∀ module, module ∈ order ↔ ∃ item ∈ items, item.module = module) →
        (packInTurn folder (order.map fun module =>
          ⟨items, some module⟩)).Interchangeable (pack items folder none) tree) ∧
    (∀ first second : PackRequest, first.Apart second →
      (packInTurn folder [first, second]).Interchangeable
        (packInTurn folder [second, first]) tree) ∧
    ∀ (request : PackRequest) (packing : Packing) (session : Session),
      (pack request.items folder request.selected).runOn tree =
          (.ok packing, session) →
        ∃ again,
          (pack request.items folder request.selected).runOn session.files =
            (.ok packing, again) ∧
          ∀ place, again.files.node? place = session.files.node? place := by
  refine ⟨?_, ?_, ?_⟩
  case refine_1 =>
    intro items order covers
    have interchangeable : (packInTurn folder (order.map fun module =>
        ⟨items, some module⟩)).Interchangeable (packInTurn folder [⟨items, none⟩])
          tree := by
      apply history.settled.interchangeable
      intro module
      rw [PackRequest.lastGroup?_map_some]
      split
      · rfl
      · rename_i notOrdered
        have absent : ∀ item ∈ items, item.module ≠ module := fun item member same =>
          notOrdered ((covers module).2 ⟨item, member, same⟩)
        exact (PackRequest.group?_eq_none_of_forall_ne absent).symm
    exact interchangeable.trans (packInTurn_singleton_interchangeable _ tree)
  case refine_2 =>
    intro first second apart
    exact history.settled.interchangeable (PackRequest.lastGroup?_comm apart)
  case refine_3 =>
    intro request packing session run
    exact history.settled.pack_again run

/-- Items of two modules, the second module first. -/
def mixedItems : List Item :=
  [sampleItem 4, sampleItem 3]

/-- The folder holds sets of module three, which are replaced. -/
theorem packings_of_mixedItems :
    ∃ tree, PackHistory ⟨"out"⟩ tree ∧
      ((packInTurn ⟨"out"⟩ ([3, 4].map fun module =>
        ⟨mixedItems, some module⟩)).runOn tree).1.isOk = true ∧
      (packInTurn ⟨"out"⟩ ([3, 4].map fun module =>
        ⟨mixedItems, some module⟩)).Interchangeable
          (pack mixedItems ⟨"out"⟩ none) tree := by
  let tree := ((pack [sampleItem 3] ⟨"out"⟩ none).runOn .empty).2.files
  obtain ⟨packedOk, turnOk⟩ :
      ((pack [sampleItem 3] ⟨"out"⟩ none).runOn .empty).1.isOk = true ∧
        ((packInTurn ⟨"out"⟩ ([3, 4].map fun module =>
          ⟨mixedItems, some module⟩)).runOn tree).1.isOk = true := by
    decide +kernel
  obtain ⟨_, packed⟩ := Job.exists_of_isOk packedOk
  have history : PackHistory ⟨"out"⟩ tree :=
    .packed (.start (FileTree.isVacant_empty _)) packed
  have covers (module : UInt32) :
      module ∈ [3, 4] ↔ ∃ item ∈ mixedItems, item.module = module := by
    simp [mixedItems, sampleItem, eq_comm, or_comm]
  exact ⟨tree, history, turnOk,
    history.packings_in_any_order.1 mixedItems [3, 4] covers⟩

end LectureQuiz
