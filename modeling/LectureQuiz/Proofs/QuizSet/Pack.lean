import LectureQuiz.Proofs.QuizSet.Groups
import LectureQuiz.Proofs.QuizSet.Replace

namespace LectureQuiz

open LectureQuiz.Text

/-- The items that are packed. -/
def selectedItems (selected : Option UInt32) (items : List Item) : List Item :=
  items.filter fun item => selected.all (item.module == ·)

theorem groupByModule_eq_nil_iff {items : List Item} :
    groupByModule items = [] ↔ items = [] := by
  refine ⟨?_, by rintro rfl; rfl⟩
  intro noGroups
  have holds := holds_groupByModule items
  rw [noGroups] at holds
  cases items with
  | nil => rfl
  | cons item rest =>
      have found := holds.lookup_eq item.module
      simp [itemsOf] at found

variable {session after : Session} {folder : Path} {items : List Item}
  {selected : Option UInt32} {packing : Packing}

/-- When nothing is selected, nothing is changed. -/
theorem yields_pack_of_nil
    (nothing : selectedItems selected items = [])
    (run : (pack items folder selected).Yields session packing after) :
    packing = ⟨folder, [], .empty⟩ ∧ after = session := by
  have noGroups : groupByModule (items.filter fun item =>
      selected.all (item.module == ·)) = [] :=
    groupByModule_eq_nil_iff.2 nothing
  rw [pack, noGroups] at run
  exact Job.yields_pure.1 run

/-- The trees that a successful packing goes through. -/
structure PackRun (tree prepared written final : FileTree) (folder : Path)
    (groups : ModuleGroups) (manifest : Manifest) : Prop where
  created : tree.createFolders folder = (.ok (), prepared)
  hasFolder : prepared.HasFolder folder folder.place
  sets : prepared.Replaces written folder (groupFiles groups)
  merged : manifest = mergeManifest written folder (groups.map Prod.fst)
    (groupEntries groups)
  stored : written.Replaces final folder
    [(Manifest.fileName, manifest.toJson.pretty)]

theorem yields_pack
    (something : selectedItems selected items ≠ [])
    (run : (pack items folder selected).Yields session packing after) :
    ∃ prepared written, PackRun session.files prepared written after.files folder
      (groupByModule (selectedItems selected items)) packing.manifest := by
  have isGrouped : (groupByModule (selectedItems selected items)).isEmpty = false := by
    simpa [groupByModule_eq_nil_iff] using something
  rw [pack, ← selectedItems, isGrouped] at run
  simp only [Bool.false_eq_true, if_false, Job.yields_bind, Job.yields_files,
    Job.yields_createFolders, Job.yields_pure] at run
  obtain ⟨_, _, ⟨prepared, created, rfl⟩, entries, _, runSets, _, _, ⟨rfl, rfl⟩,
    _, _, runManifest, rfl, rfl⟩ := run
  obtain ⟨_, location, found⟩ := FileTree.createFolders_ok created
  have has : prepared.HasFolder folder folder.place := found.eq_place ▸ found
  obtain ⟨sameEntries, written, rfl, replacesSets⟩ :=
    yields_mapM_writeSets (holds_groupByModule _).distinct has runSets
  obtain ⟨final, rfl, stored⟩ := yields_replaceFile (replacesSets.hasFolder has)
    Manifest.isOpenName_fileName runManifest
  exact ⟨prepared, written, created, has, replacesSets, by rw [sameEntries],
    stored⟩

/-- A packing tells the modules of the groups. -/
theorem packing_of_yields
    (something : selectedItems selected items ≠ [])
    (run : (pack items folder selected).Yields session packing after) :
    packing = ⟨folder, (groupByModule (selectedItems selected items)).map Prod.fst,
      packing.manifest⟩ := by
  have isGrouped : (groupByModule (selectedItems selected items)).isEmpty = false := by
    simpa [groupByModule_eq_nil_iff] using something
  rw [pack, ← selectedItems, isGrouped] at run
  simp only [Bool.false_eq_true, if_false, Job.yields_bind, Job.yields_pure] at run
  obtain ⟨_, _, _, _, _, _, _, _, _, _, _, _, rfl, _⟩ := run
  rfl

namespace FileTree

variable {tree other : FileTree}

theorem manifest_of_read
    {manifest : Manifest}
    (isRead : tree.read (folder.join Manifest.fileName) =
      .ok manifest.toJson.pretty.toUTF8) :
    tree.manifest folder = manifest := by
  have parsed : Json.parse? manifest.toJson.pretty.toList = some manifest.toJson := by
    rw [Json.pretty, String.toList_ofList]
    exact Json.parse?_prettyChars manifest.isPlain_toJson 0
  rw [FileTree.manifest, isRead]
  dsimp only
  rw [text?_toUTF8, Option.bind_some, parsed]
  exact congrArg (·.getD .empty) manifest.ofJson?_toJson

theorem manifest_congr
    (has : tree.HasFolder folder folder.place)
    (hasOther : other.HasFolder folder folder.place)
    (same : tree.node? (folder.place ++ [Manifest.fileName]) =
      other.node? (folder.place ++ [Manifest.fileName])) :
    tree.manifest folder = other.manifest folder := by
  have isName := Manifest.isOpenName_fileName.isName
  have sameRead (content : ByteArray) :
      tree.read (folder.join Manifest.fileName) = .ok content ↔
        other.read (folder.join Manifest.fileName) = .ok content := by
    rw [has.read_join isName, hasOther.read_join isName, same]
  rw [FileTree.manifest, FileTree.manifest]
  cases first : tree.read (folder.join Manifest.fileName) with
  | ok content => rw [(sameRead content).1 first]
  | error fault =>
      cases second : other.read (folder.join Manifest.fileName) with
      | ok content => exact absurd (first.symm.trans ((sameRead content).2 second)) nofun
      | error _ => rfl

end FileTree

theorem mem_mergeManifest
    {files : FileTree} {modules : List UInt32} {written : List SetEntry}
    {entry : SetEntry} :
    entry ∈ (mergeManifest files folder modules written).sets ↔
      (entry ∈ (files.manifest folder).sets ∧ entry.module ∉ modules ∧
        files.pathExists (folder.join entry.fileName) = true) ∨
      entry ∈ written := by
  simp [mergeManifest]

theorem mem_groupEntries {groups : ModuleGroups} {entry : SetEntry} :
    entry ∈ groupEntries groups ↔
      ∃ (module : UInt32) (group : List Item) (mode : SetMode),
        (module, group) ∈ groups ∧ entry = entryOf module group mode := by
  simp only [groupEntries, List.mem_flatMap, Prod.exists, List.mem_map]
  constructor
  · rintro ⟨module, group, member, mode, _, rfl⟩
    exact ⟨module, group, mode, member, rfl⟩
  · rintro ⟨module, group, mode, member, rfl⟩
    refine ⟨module, group, member, mode, ?_, rfl⟩
    cases mode <;> simp [SetMode.all]

/-- The entries are of different sets. -/
def Different (first second : SetEntry) : Prop :=
  ¬(first.module = second.module ∧ first.mode = second.mode)

theorem pairwise_different_groupEntries
    {groups : ModuleGroups} (distinct : (groups.map Prod.fst).Nodup) :
    (groupEntries groups).Pairwise Different := by
  rw [groupEntries, List.pairwise_flatMap]
  refine ⟨?_, ?_⟩
  · rintro ⟨module, group⟩ _
    simp [SetMode.all, Different, entryOf]
  · refine (List.pairwise_map.1 distinct).imp ?_
    rintro ⟨module, group⟩ ⟨otherModule, otherGroup⟩ apart entry member other isOther
    obtain ⟨_, _, rfl⟩ := List.mem_map.1 member
    obtain ⟨_, _, rfl⟩ := List.mem_map.1 isOther
    exact fun same => apart same.1

theorem SetEntry.Before.different {first second : SetEntry}
    (before : first.Before second) : Different first second := by
  rintro ⟨sameModule, sameMode⟩
  rcases before with below | ⟨_, rank⟩
  · exact absurd (sameModule ▸ below) (UInt32.lt_irrefl _)
  · exact absurd (sameMode ▸ rank) (Nat.lt_irrefl _)

theorem pairwise_before_mergeManifest
    {files : FileTree} {groups : ModuleGroups}
    (increasing : (files.manifest folder).sets.Pairwise SetEntry.Before)
    (distinct : (groups.map Prod.fst).Nodup) :
    (mergeManifest files folder (groups.map Prod.fst)
      (groupEntries groups)).sets.Pairwise SetEntry.Before := by
  refine SetEntry.pairwise_before_mergeSort (List.pairwise_append.2
    ⟨?_, pairwise_different_groupEntries distinct, ?_⟩)
  · exact (increasing.imp SetEntry.Before.different).sublist List.filter_sublist
  · intro entry kept other isWritten same
    obtain ⟨module, group, mode, member, rfl⟩ := mem_groupEntries.1 isWritten
    have notWritten := (List.mem_filter.1 kept).2
    simp only [Bool.and_eq_true, Bool.not_eq_true', List.contains_eq_mem,
      decide_eq_false_iff_not] at notWritten
    exact notWritten.1 (same.1 ▸ List.mem_map.2 ⟨_, member, rfl⟩)

end LectureQuiz
