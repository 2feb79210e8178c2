import LectureQuiz.Proofs.QuizSet.Pack

/-!
# Folders whose manifest is true

`Lists` says that a manifest tells the truth about the sets in its folder: each
set file that is there has an entry, and holds the items that the entry is made
from. Packing into such a folder leaves such a folder.
-/

namespace LectureQuiz

namespace FileTree

/-- The manifest of the folder lists the sets in it, which hold the given items of
each module. An entry may have lost its file, but no other node is in its
place. -/
structure Lists (files : FileTree) (folder : Path) (held : UInt32 → List Item) :
    Prop where
  increasing : (files.manifest folder).sets.Pairwise SetEntry.Before
  entry_eq : ∀ entry ∈ (files.manifest folder).sets,
    entry = entryOf entry.module (held entry.module) entry.mode
  fits : ∀ entry ∈ (files.manifest folder).sets, folder.Fits entry.fileName
  notFolder : ∀ entry ∈ (files.manifest folder).sets,
    files.node? (folder.place ++ [entry.fileName]) ≠ some .folder
  file_eq : ∀ (mode : SetMode) (module : UInt32) (content : ByteArray),
    files.node? (folder.place ++ [mode.fileName module]) = some (.file content) →
      content = (Records.render (held module)).toUTF8 ∧
        entryOf module (held module) mode ∈ (files.manifest folder).sets

variable {tree other : FileTree} {folder : Path} {held : UInt32 → List Item}

theorem Lists.fileName_eq
    (lists : tree.Lists folder held) {entry : SetEntry}
    (member : entry ∈ (tree.manifest folder).sets) :
    entry.fileName = entry.mode.fileName entry.module := by
  rw [lists.entry_eq entry member]
  rfl

theorem lists_of_no_sets
    (noManifest : ∀ content,
      tree.node? (folder.place ++ [Manifest.fileName]) ≠ some (.file content))
    (noSet : ∀ (mode : SetMode) (module : UInt32) content,
      tree.node? (folder.place ++ [mode.fileName module]) ≠ some (.file content))
    (has : tree.HasFolder folder folder.place) (held : UInt32 → List Item) :
    tree.Lists folder held := by
  have noEntries : (tree.manifest folder).sets = [] := by
    have isName := Manifest.isOpenName_fileName.isName
    rw [FileTree.manifest]
    cases isRead : tree.read (folder.join Manifest.fileName) with
    | error fault => rfl
    | ok content => exact absurd ((has.read_join isName).1 isRead).2 (noManifest _)
  constructor
  case increasing => rw [noEntries]; exact .nil
  case entry_eq => simp [noEntries]
  case fits => simp [noEntries]
  case notFolder => simp [noEntries]
  case file_eq =>
    intro mode module content there
    exact absurd there (noSet mode module content)

theorem lists_of_no_files
    (noFile : ∀ name, IsName name → ∀ content,
      tree.node? (folder.place ++ [name]) ≠ some (.file content))
    (has : tree.HasFolder folder folder.place) (held : UInt32 → List Item) :
    tree.Lists folder held :=
  lists_of_no_sets (noFile _ Manifest.isOpenName_fileName.isName)
    (fun mode module => noFile _ (SetMode.isOpenName_fileName mode module).isName) has held

/-- The items of each module after some groups were written. -/
def heldAfter (groups : ModuleGroups) (held : UInt32 → List Item)
    (module : UInt32) : List Item :=
  (groups.lookup module).getD (held module)

theorem heldAfter_of_mem
    {groups : ModuleGroups} (distinct : (groups.map Prod.fst).Nodup)
    {module : UInt32} {items : List Item} (member : (module, items) ∈ groups) :
    heldAfter groups held module = items := by
  rw [heldAfter, (mem_iff_lookup_eq distinct).1 member, Option.getD_some]

theorem heldAfter_of_not_mem
    {groups : ModuleGroups} {module : UInt32}
    (absent : module ∉ groups.map Prod.fst) :
    heldAfter groups held module = held module := by
  rw [heldAfter, lookup_eq_none_iff_not_mem.2 absent, Option.getD_none]

end FileTree

namespace PackRun

open FileTree

variable {tree prepared written final : FileTree} {folder : Path}
  {groups : ModuleGroups} {manifest : Manifest} {held : UInt32 → List Item}

theorem hasFolder_written
    (run : PackRun tree prepared written final folder groups manifest) :
    written.HasFolder folder folder.place :=
  run.sets.hasFolder run.hasFolder

theorem hasFolder_final
    (run : PackRun tree prepared written final folder groups manifest) :
    final.HasFolder folder folder.place :=
  run.stored.hasFolder run.hasFolder_written

theorem read_manifest
    (run : PackRun tree prepared written final folder groups manifest) :
    final.read (folder.join Manifest.fileName) =
      .ok manifest.toJson.pretty.toUTF8 := by
  have isWritten : (Manifest.fileName, manifest.toJson.pretty) ∈
      [(Manifest.fileName, manifest.toJson.pretty)] := List.mem_cons_self
  have fits := run.stored.fits _ isWritten
  have there := run.stored.present _ isWritten
  dsimp only at fits there
  have isName := Manifest.isOpenName_fileName.isName
  exact (run.hasFolder_final.read_join isName).2 ⟨fits, there⟩

theorem manifest_final
    (run : PackRun tree prepared written final folder groups manifest) :
    final.manifest folder = manifest :=
  manifest_of_read run.read_manifest

/-- The sets are written before the manifest is merged, and leave it as it was
found. -/
theorem manifest_written
    (run : PackRun tree prepared written final folder groups manifest) :
    written.manifest folder = prepared.manifest folder := by
  refine manifest_congr run.hasFolder_written run.hasFolder ?_
  refine run.sets.node?_of_forall_ne Manifest.isOpenName_fileName ?_
  intro file member
  obtain ⟨module, _, mode, _, rfl⟩ := mem_groupFiles.1 member
  exact SetMode.fileName_ne_manifest mode module

theorem node?_set_final
    (run : PackRun tree prepared written final folder groups manifest)
    (mode : SetMode) (module : UInt32) :
    final.node? (folder.place ++ [mode.fileName module]) =
      written.node? (folder.place ++ [mode.fileName module]) := by
  refine run.stored.node?_of_forall_ne (SetMode.isOpenName_fileName mode module) ?_
  intro file member
  obtain rfl := List.mem_singleton.1 member
  exact (SetMode.fileName_ne_manifest mode module).symm

theorem node?_set_of_mem
    (run : PackRun tree prepared written final folder groups manifest)
    {module : UInt32} {items : List Item} (member : (module, items) ∈ groups)
    (mode : SetMode) :
    final.node? (folder.place ++ [mode.fileName module]) =
      some (.file (Records.render items).toUTF8) := by
  rw [run.node?_set_final]
  exact run.sets.present _ (mem_groupFiles.2 ⟨module, items, mode, member, rfl⟩)

theorem node?_set_of_not_mem
    (run : PackRun tree prepared written final folder groups manifest)
    {module : UInt32} (absent : module ∉ groups.map Prod.fst) (mode : SetMode) :
    final.node? (folder.place ++ [mode.fileName module]) =
      prepared.node? (folder.place ++ [mode.fileName module]) := by
  rw [run.node?_set_final]
  refine run.sets.node?_of_forall_ne (SetMode.isOpenName_fileName mode module) ?_
  intro file member same
  obtain ⟨other, items, otherMode, isGroup, rfl⟩ := mem_groupFiles.1 member
  obtain ⟨_, rfl⟩ := SetMode.fileName_inj.1 same
  exact absent (List.mem_map.2 ⟨_, isGroup, rfl⟩)

/-- An entry of the new manifest was written now, or it was found and its file
is still there. -/
theorem mem_sets_iff
    (run : PackRun tree prepared written final folder groups manifest)
    (lists : prepared.Lists folder held) {entry : SetEntry} :
    entry ∈ manifest.sets ↔
      (entry ∈ (prepared.manifest folder).sets ∧
        entry.module ∉ groups.map Prod.fst ∧
        final.node? (folder.place ++ [entry.fileName]) ≠ none) ∨
      entry ∈ groupEntries groups := by
  rw [run.merged, mem_mergeManifest, run.manifest_written]
  refine or_congr_left (and_congr_right fun isOld => and_congr_right fun _ => ?_)
  have name := lists.fileName_eq isOld
  have fits := lists.fits entry isOld
  rw [name] at fits ⊢
  have isName :=
    (SetMode.isOpenName_fileName entry.mode entry.module).isName
  rw [run.hasFolder_written.pathExists_join isName, run.node?_set_final]
  exact and_iff_right fits

theorem entry_facts
    (run : PackRun tree prepared written final folder groups manifest)
    (distinct : (groups.map Prod.fst).Nodup)
    (lists : prepared.Lists folder held) {entry : SetEntry}
    (member : entry ∈ manifest.sets) :
    entry = entryOf entry.module (heldAfter groups held entry.module) entry.mode ∧
      folder.Fits entry.fileName ∧
      final.node? (folder.place ++ [entry.fileName]) =
        some (.file (Records.render
          (heldAfter groups held entry.module)).toUTF8) := by
  rcases (run.mem_sets_iff lists).1 member with ⟨isOld, absent, there⟩ | isNew
  · have name := lists.fileName_eq isOld
    have notFolder := lists.notFolder entry isOld
    rw [heldAfter_of_not_mem absent]
    refine ⟨lists.entry_eq entry isOld, lists.fits entry isOld, ?_⟩
    rw [name] at there notFolder ⊢
    rw [run.node?_set_of_not_mem absent] at there ⊢
    obtain ⟨node, found⟩ := Option.ne_none_iff_exists'.1 there
    cases node with
    | folder => exact absurd found notFolder
    | file content => rw [found, (lists.file_eq _ _ _ found).1]
  · obtain ⟨module, items, mode, isGroup, rfl⟩ := mem_groupEntries.1 isNew
    have isWritten := mem_groupFiles.2 ⟨module, items, mode, isGroup, rfl⟩
    have fits := run.sets.fits _ isWritten
    dsimp only at fits
    dsimp only [entryOf]
    rw [heldAfter_of_mem distinct isGroup]
    exact ⟨rfl, fits, run.node?_set_of_mem isGroup mode⟩

/-- Packing keeps the manifest of the folder true. -/
theorem lists
    (run : PackRun tree prepared written final folder groups manifest)
    (distinct : (groups.map Prod.fst).Nodup)
    (lists : prepared.Lists folder held) :
    final.Lists folder (heldAfter groups held) := by
  constructor
  case increasing =>
    rw [run.manifest_final, run.merged]
    refine pairwise_before_mergeManifest ?_ distinct
    rw [run.manifest_written]
    exact lists.increasing
  case entry_eq =>
    rw [run.manifest_final]
    exact fun entry member => (run.entry_facts distinct lists member).1
  case fits =>
    rw [run.manifest_final]
    exact fun entry member => (run.entry_facts distinct lists member).2.1
  case notFolder =>
    rw [run.manifest_final]
    intro entry member isFolder
    have isFile := (run.entry_facts distinct lists member).2.2
    exact absurd (isFolder.symm.trans isFile) nofun
  case file_eq =>
    intro mode module content there
    rw [run.manifest_final, run.mem_sets_iff lists]
    by_cases packed : module ∈ groups.map Prod.fst
    · obtain ⟨⟨first, items⟩, isGroup, same⟩ := List.mem_map.1 packed
      obtain rfl : first = module := same
      rw [run.node?_set_of_mem isGroup, Option.some.injEq, Node.file.injEq] at there
      rw [heldAfter_of_mem distinct isGroup]
      exact ⟨there.symm, Or.inr (mem_groupEntries.2 ⟨_, _, mode, isGroup, rfl⟩)⟩
    · have before := there
      rw [run.node?_set_of_not_mem packed] at before
      have ⟨isContent, isOld⟩ := lists.file_eq mode module content before
      rw [heldAfter_of_not_mem packed]
      refine ⟨isContent, Or.inl ⟨isOld, packed, ?_⟩⟩
      exact Option.ne_none_iff_exists'.2 ⟨_, there⟩

end PackRun

end LectureQuiz
