import LectureQuiz.Proofs.QuizSet.History

namespace LectureQuiz

open LectureQuiz.Text

variable {files : FileTree} {folder : Path} {items : List Item}
  {selected : Option UInt32} {module : UInt32} {mode : SetMode}

theorem loadSet_of_missing
    (missing : files.pathExists (folder.join (mode.fileName module)) = false) :
    ((loadSet folder module mode).runOn files).1 =
      .error (.missingInput (folder.join (mode.fileName module))) := by
  have isFiles : ((Job.files).run.run ⟨files, []⟩ :
      Except Error FileTree × Session) = (.ok files, ⟨files, []⟩) := rfl
  rw [Job.runOn, loadSet, Job.run_bind, isFiles]
  dsimp only
  rw [missing]
  rfl

theorem loadSet_of_file
    {group : List Item} (nonempty : group ≠ [])
    (valid : ∀ item ∈ group, item.isValid = true)
    (has : files.HasFolder folder folder.place)
    (fits : folder.Fits (mode.fileName module))
    (there : files.node? (folder.place ++ [mode.fileName module]) =
      some (.file (Records.render group).toUTF8)) :
    ((loadSet folder module mode).runOn files).1 = .ok group := by
  have isName := (SetMode.isOpenName_fileName mode module).isName
  have found : files.pathExists (folder.join (mode.fileName module)) = true :=
    (has.pathExists_join isName).2 ⟨fits, by rw [there]; exact nofun⟩
  have isRead := (has.read_join isName).2 ⟨fits, there⟩
  have allValid : group.filter Item.isValid = group := List.filter_eq_self.2 valid
  have notEmpty : group.isEmpty = false := by simpa using nonempty
  have yields : (loadSet folder module mode).Yields ⟨files, []⟩ group ⟨files, []⟩ := by
    rw [loadSet, Job.yields_bind]
    refine ⟨files, _, Job.yields_files.2 ⟨rfl, rfl⟩, ?_⟩
    rw [found]
    refine Job.yields_bind.2 ⟨group, _, Job.yields_readRecords.2 ⟨?_, rfl⟩, ?_⟩
    · exact ⟨_, _, isRead, text?_toUTF8 _, by rw [Records.parse_render]⟩
    · rw [allValid]
      dsimp only
      rw [notEmpty]
      exact Job.yields_pure.2 ⟨rfl, rfl⟩
  rw [Job.yields_iff_runOn.1 yields]

/-- The entry of a set, if the manifest has one. -/
def Manifest.find? (manifest : Manifest) (module : UInt32) (mode : SetMode) :
    Option SetEntry :=
  manifest.sets.find? fun entry => entry.module == module && entry.mode == mode

theorem Manifest.find?_eq_none
    {manifest : Manifest} (absent : ∀ entry ∈ manifest.sets, entry.module ≠ module) :
    manifest.find? module mode = none := by
  rw [find?, List.find?_eq_none]
  intro entry member
  simp [absent entry member]

theorem Manifest.Describes.find?_eq_some
    {manifest : Manifest} (describes : manifest.Describes files folder)
    {entry : SetEntry} (member : entry ∈ manifest.sets) :
    manifest.find? entry.module entry.mode = some entry := by
  obtain ⟨content, _, isRead, _⟩ := describes.present entry member
  rw [describes.fileName_eq entry member] at isRead
  obtain ⟨only, _, unique⟩ := describes.listed entry.mode entry.module content isRead
  have isOnly := unique entry ⟨member, rfl, rfl⟩
  cases found : manifest.find? entry.module entry.mode with
  | none =>
      have noMatch := List.find?_eq_none.1 found entry member
      simp at noMatch
  | some other =>
      have isOther := List.mem_of_find?_eq_some found
      have keys := List.find?_some found
      simp only [Bool.and_eq_true, beq_iff_eq] at keys
      rw [isOnly, unique other ⟨isOther, keys.2, keys.1⟩]

/-- The items of one module that a packing delivers. -/
def deliveredItems (selected : Option UInt32) (module : UInt32)
    (items : List Item) : List Item :=
  if selected.all (module == ·) then itemsOf module items else []

theorem itemsOf_selectedItems :
    itemsOf module (selectedItems selected items) =
      deliveredItems selected module items :=
  itemsOf_filter_all selected module items

theorem isValid_of_mem_deliveredItems
    (valid : ∀ item ∈ items, item.validate = .ok ()) :
    ∀ item ∈ deliveredItems selected module items, item.isValid = true := by
  intro item member
  rw [← itemsOf_selectedItems] at member
  have isItem := List.mem_of_mem_filter (List.mem_of_mem_filter member)
  rw [Item.isValid, valid item isItem]
  rfl

theorem mem_groupByModule_selectedItems
    {group : List Item} :
    (module, group) ∈ groupByModule (selectedItems selected items) ↔
      group ≠ [] ∧ group = deliveredItems selected module items := by
  rw [(holds_groupByModule _).mem_iff, itemsOf_selectedItems]

section

variable {prepared written final : FileTree} {manifest : Manifest}

theorem PackRun.load_delivered
    (run : PackRun files prepared written final folder
      (groupByModule (selectedItems selected items)) manifest)
    (valid : ∀ item ∈ items, item.validate = .ok ())
    (delivered : deliveredItems selected module items ≠ []) :
    ((loadSet folder module mode).runOn final).1 =
      .ok (deliveredItems selected module items) := by
  have isGroup := mem_groupByModule_selectedItems.2 ⟨delivered, rfl⟩
  have isWritten := mem_groupFiles.2 ⟨module, _, mode, isGroup, rfl⟩
  have fits := run.sets.fits _ isWritten
  dsimp only at fits
  exact loadSet_of_file delivered (isValid_of_mem_deliveredItems valid)
    run.hasFolder_final fits (run.node?_set_of_mem isGroup mode)

theorem PackRun.node?_undelivered
    (run : PackRun files prepared written final folder
      (groupByModule (selectedItems selected items)) manifest)
    (vacant : prepared.IsVacant folder)
    (undelivered : deliveredItems selected module items = []) (mode : SetMode) :
    final.node? (folder.place ++ [mode.fileName module]) = none := by
  have isName := (SetMode.isOpenName_fileName mode module).isName
  rw [run.node?_set_of_not_mem, vacant _ isName]
  intro packed
  obtain ⟨⟨first, group⟩, isGroup, same⟩ := List.mem_map.1 packed
  obtain rfl : first = module := same
  have ⟨nonempty, whole⟩ := mem_groupByModule_selectedItems.1 isGroup
  exact nonempty (whole.trans undelivered)

end

/-- A module with items is loaded as packed, and its size is in the manifest. All
other modules are missing there and there. -/
theorem loadSet_of_pack
    {packing : Packing} {session : Session}
    (valid : ∀ item ∈ items, item.validate = .ok ())
    (fresh : files.IsFresh folder)
    (run : (pack items folder selected).runOn files = (.ok packing, session))
    (module : UInt32) (mode : SetMode) :
    (deliveredItems selected module items ≠ [] →
      ((loadSet folder module mode).runOn session.files).1 =
          .ok (deliveredItems selected module items) ∧
        (packing.manifest.find? module mode).map SetEntry.items =
          some (deliveredItems selected module items).length.toUInt64) ∧
    (deliveredItems selected module items = [] →
      ((loadSet folder module mode).runOn session.files).1 =
          .error (.missingInput (folder.join (mode.fileName module))) ∧
        packing.manifest.find? module mode = none) := by
  have isName := (SetMode.isOpenName_fileName mode module).isName
  have yields := Job.yields_iff_runOn.2 run
  by_cases nothing : selectedItems selected items = []
  · obtain ⟨rfl, rfl⟩ := yields_pack_of_nil nothing yields
    have undelivered : deliveredItems selected module items = [] := by
      rw [← itemsOf_selectedItems, nothing]
      rfl
    refine ⟨absurd undelivered, fun _ => ⟨?_, rfl⟩⟩
    have absent := fresh.vacant _ isName
    exact loadSet_of_missing (FileTree.pathExists_of_absent isName absent)
  · obtain ⟨prepared, written, passes⟩ := yields_pack nothing yields
    have vacant := fresh.created prepared passes.created
    have lists : prepared.Lists folder fun _ => [] :=
      FileTree.lists_of_no_files
        (fun name isName _ there =>
          absurd ((vacant name isName).symm.trans there) nofun)
        passes.hasFolder _
    have distinct :=
      (holds_groupByModule (selectedItems selected items)).distinct
    refine ⟨fun delivered => ⟨passes.load_delivered valid delivered, ?_⟩,
      fun undelivered => ⟨?_, ?_⟩⟩
    · have isGroup := mem_groupByModule_selectedItems.2 ⟨delivered, rfl⟩
      have isListed := (passes.mem_sets_iff lists).2
        (Or.inr (mem_groupEntries.2 ⟨module, _, mode, isGroup, rfl⟩))
      have entry := (passes.describes distinct lists).find?_eq_some isListed
      exact congrArg (Option.map SetEntry.items) entry
    · have absent := passes.node?_undelivered vacant undelivered mode
      exact loadSet_of_missing (FileTree.pathExists_of_absent isName absent)
    · refine Manifest.find?_eq_none fun entry member same => ?_
      obtain ⟨whole, _, there⟩ := passes.entry_facts distinct lists member
      have name : entry.fileName = entry.mode.fileName module := by
        rw [congrArg SetEntry.fileName whole, ← same]
        rfl
      rw [name, passes.node?_undelivered vacant undelivered] at there
      exact absurd there nofun

theorem isFresh_empty : FileTree.empty.IsFresh ⟨"out"⟩ := by
  refine ⟨FileTree.isVacant_empty _, ?_⟩
  intro other created name isName
  have place : (Path.mk "out").place = ["out"] := by decide +kernel
  have isCreated : FileTree.empty.createFolders ⟨"out"⟩ =
      (.ok (), FileTree.empty.put ["out"] .folder) := by
    rfl
  rw [isCreated, Prod.mk.injEq] at created
  rw [place, ← created.2, FileTree.node?_put_of_ne _ _ (by simp)]
  exact FileTree.isVacant_empty ⟨"out"⟩ name isName

/-- A packed module is loaded, another one is missing. -/
theorem loadSet_of_packed_sample :
    ∃ (packing : Packing) (session : Session),
      (pack [sampleItem 3] ⟨"out"⟩ none).runOn .empty = (.ok packing, session) ∧
        ((loadSet ⟨"out"⟩ 3 .memorize).runOn session.files).1 =
          .ok [sampleItem 3] ∧
        ((loadSet ⟨"out"⟩ 4 .practice).runOn session.files).1 =
          .error (.missingInput ((Path.mk "out").join
            (SetMode.practice.fileName 4))) := by
  have isOk : ((pack [sampleItem 3] ⟨"out"⟩ none).runOn .empty).1.isOk = true := by
    decide +kernel
  obtain ⟨packing, run⟩ := Job.exists_of_isOk isOk
  have valid : ∀ item ∈ [sampleItem 3], item.validate = .ok () := by
    intro item member
    rw [List.mem_singleton.1 member]
    rfl
  have loads := loadSet_of_pack valid isFresh_empty run
  exact ⟨packing, _, run, ((loads 3 .memorize).1 (by decide)).1,
    ((loads 4 .practice).2 rfl).1⟩

end LectureQuiz
