import Mathlib.Data.Set.Card
import LectureQuiz.Proofs.QuizSet.History
import LectureQuiz.Proofs.QuizSet.Partition
import LectureQuiz.Proofs.Stage.ReadFirst

/-!
# Numbers of sets

The manifest that a packing leaves lists the two sets of each module that was packed, and
sets of other modules that were there before. In a folder that only packing fills, it
lists exactly the sets that are there.
-/

namespace LectureQuiz

namespace Manifest

/-- The entries of the modules that are none of these. -/
def others (manifest : Manifest) (modules : List UInt32) : List SetEntry :=
  manifest.sets.filter fun entry => !modules.contains entry.module

end Manifest

theorem length_groupEntries (groups : ModuleGroups) :
    (groupEntries groups).length = 2 * (groups.map Prod.fst).length := by
  induction groups with
  | nil => rfl
  | cons group rest inductionHypothesis =>
      rw [groupEntries, List.flatMap_cons, List.length_append, ← groupEntries,
        inductionHypothesis, List.map_cons, List.length_cons, Nat.mul_succ, Nat.add_comm]
      rfl

/-- A merged manifest has two entries for each module, and those of other modules. -/
theorem length_mergeManifest
    (files : FileTree) (folder : Path) (groups : ModuleGroups) :
    let modules := groups.map Prod.fst
    let manifest := mergeManifest files folder modules (groupEntries groups)
    manifest.sets.length = 2 * modules.length + (manifest.others modules).length := by
  intro modules manifest
  let kept := (files.manifest folder).sets.filter fun entry =>
    !modules.contains entry.module && files.pathExists (folder.join entry.fileName)
  have sorted : manifest.sets.Perm (kept ++ groupEntries groups) := List.mergeSort_perm _ _
  have keptOnly : kept.filter (fun entry => !modules.contains entry.module) = kept := by
    refine List.filter_eq_self.2 fun entry member => ?_
    exact (Bool.and_eq_true_iff.1 (List.mem_filter.1 member).2).1
  have noneWritten : (groupEntries groups).filter
      (fun entry => !modules.contains entry.module) = [] := by
    refine List.filter_eq_nil_iff.2 fun entry member => ?_
    obtain ⟨module, items, mode, isGroup, rfl⟩ := mem_groupEntries.1 member
    have isModule : module ∈ modules := List.mem_map_of_mem isGroup
    simpa [entryOf] using isModule
  have sameOthers : (manifest.others modules).length = kept.length := by
    rw [Manifest.others, (sorted.filter _).length_eq, List.filter_append, keptOnly,
      noneWritten, List.append_nil]
  rw [sameOthers, sorted.length_eq, List.length_append, length_groupEntries, Nat.add_comm]

namespace FileTree

/-- The sets in the folder: the modes and modules whose files can be read. -/
def setsIn (files : FileTree) (folder : Path) : Set (SetMode × UInt32) :=
  {set | ∃ content, files.read (folder.join (set.1.fileName set.2)) = .ok content}

end FileTree

namespace Manifest.Describes

variable {manifest : Manifest} {files : FileTree} {folder : Path}

theorem mem_setsIn_iff
    (describes : manifest.Describes files folder) {set : SetMode × UInt32} :
    set ∈ files.setsIn folder ↔
      ∃ entry ∈ manifest.sets, (entry.mode, entry.module) = set := by
  constructor
  · intro isThere
    obtain ⟨content, isRead⟩ := isThere
    obtain ⟨entry, ⟨member, sameMode, sameModule⟩, _⟩ :=
      describes.listed set.1 set.2 content isRead
    exact ⟨entry, member, Prod.ext sameMode sameModule⟩
  · rintro ⟨entry, member, rfl⟩
    obtain ⟨content, _, isRead, _⟩ := describes.present entry member
    rw [describes.fileName_eq entry member] at isRead
    exact ⟨content, isRead⟩

/-- A manifest that describes a folder has as many entries as there are sets. -/
theorem length_eq_ncard (describes : manifest.Describes files folder) :
    manifest.sets.length = (files.setsIn folder).ncard := by
  have distinct : (manifest.sets.map fun entry => (entry.mode, entry.module)).Nodup := by
    refine List.pairwise_map.2 (describes.increasing.imp fun before same => ?_)
    exact before.different ⟨congrArg Prod.snd same, congrArg Prod.fst same⟩
  have sets : files.setsIn folder =
      (manifest.sets.map fun entry => (entry.mode, entry.module)).toFinset := by
    ext set
    rw [describes.mem_setsIn_iff, Finset.mem_coe, List.mem_toFinset, List.mem_map]
  rw [sets, Set.ncard_coe_finset, List.toFinset_card_of_nodup distinct, List.length_map]

theorem others_eq_nil_iff
    (describes : manifest.Describes files folder) {modules : List UInt32} :
    manifest.others modules = [] ↔ ∀ set ∈ files.setsIn folder, set.2 ∈ modules := by
  rw [Manifest.others, List.filter_eq_nil_iff]
  constructor
  · intro noOthers set isThere
    obtain ⟨entry, member, rfl⟩ := describes.mem_setsIn_iff.1 isThere
    simpa using noOthers entry member
  · intro all entry member
    have isModule := all _ (describes.mem_setsIn_iff.2 ⟨entry, member, rfl⟩)
    simpa using isModule

end Manifest.Describes

/-! ## Folders that are packed into -/

namespace FileTree

variable {tree other : FileTree} {folder : Path}

/-- Neither a manifest nor a set is in the folder. -/
structure HasNoSets (tree : FileTree) (folder : Path) : Prop where
  noManifest : ∀ content,
    tree.node? (folder.place ++ [Manifest.fileName]) ≠ some (.file content)
  noSet : ∀ (mode : SetMode) (module : UInt32) content,
    tree.node? (folder.place ++ [mode.fileName module]) ≠ some (.file content)

theorem IsVacant.hasNoSets (vacant : tree.IsVacant folder) : tree.HasNoSets folder where
  noManifest content := by
    rw [vacant _ Manifest.isOpenName_fileName.isName]
    exact nofun
  noSet mode module content := by
    rw [vacant _ (SetMode.isOpenName_fileName mode module).isName]
    exact nofun

theorem isVacant_of_nodes
    (noNode : ∀ place ∈ tree.nodes.map Prod.fst, place.dropLast ≠ folder.place) :
    tree.IsVacant folder := by
  intro name isName
  rw [node?, isName.isAnchor_append]
  refine lookup_eq_none_iff_not_mem.2 fun member => noNode _ member ?_
  exact List.dropLast_concat

/-- The change leaves the names in the folder as they are, and all folders. -/
structure LeavesAlone (tree other : FileTree) (folder : Path) : Prop where
  keeps : tree.KeepsFolders other
  same : ∀ name, IsName name →
    other.node? (folder.place ++ [name]) = tree.node? (folder.place ++ [name])

theorem HasNoSets.of_leavesAlone
    (noSets : tree.HasNoSets folder) (leaves : tree.LeavesAlone other folder) :
    other.HasNoSets folder where
  noManifest content := by
    rw [leaves.same _ Manifest.isOpenName_fileName.isName]
    exact noSets.noManifest content
  noSet mode module content := by
    rw [leaves.same _ (SetMode.isOpenName_fileName mode module).isName]
    exact noSets.noSet mode module content

theorem Lists.of_leavesAlone
    {held : UInt32 → List Item} (lists : tree.Lists folder held)
    (has : tree.HasFolder folder folder.place) (leaves : tree.LeavesAlone other folder) :
    other.Lists folder held := by
  have sameManifest : other.manifest folder = tree.manifest folder :=
    manifest_congr (has.of_folders leaves.keeps) has
      (leaves.same _ Manifest.isOpenName_fileName.isName)
  constructor
  case increasing =>
    rw [sameManifest]
    exact lists.increasing
  case entry_eq =>
    rw [sameManifest]
    exact lists.entry_eq
  case fits =>
    rw [sameManifest]
    exact lists.fits
  case notFolder =>
    rw [sameManifest]
    intro entry member
    have notFolder := lists.notFolder entry member
    rw [lists.fileName_eq member] at notFolder ⊢
    rw [leaves.same _ (SetMode.isOpenName_fileName _ _).isName]
    exact notFolder
  case file_eq =>
    rw [sameManifest]
    intro mode module content there
    rw [leaves.same _ (SetMode.isOpenName_fileName mode module).isName] at there
    exact lists.file_eq mode module content there

theorem Settled.of_leavesAlone
    (settled : tree.Settled folder) (leaves : tree.LeavesAlone other folder) :
    other.Settled folder := by
  cases settled with
  | vacant vacant =>
      refine .vacant fun name isName => ?_
      rw [leaves.same name isName]
      exact vacant name isName
  | listed held has usable lists =>
      exact .listed held (has.of_folders leaves.keeps) usable (lists.of_leavesAlone has leaves)

/-- Packing finds no set, or a manifest that lists the sets. -/
def IsManaged (tree : FileTree) (folder : Path) : Prop :=
  tree.HasNoSets folder ∨ tree.Settled folder

namespace IsManaged

theorem lists_of_created
    {prepared : FileTree} (managed : tree.IsManaged folder)
    (created : tree.createFolders folder = (.ok (), prepared))
    (has : prepared.HasFolder folder folder.place) :
    ∃ held, prepared.Lists folder held := by
  rcases managed with noSets | settled
  · have grows := (createFolders_ok created).1
    refine ⟨fun _ => [], lists_of_no_sets ?_ ?_ has _⟩
    · intro content there
      exact noSets.noManifest content (grows.node?_file_iff.1 there)
    · intro mode module content there
      exact noSets.noSet mode module content (grows.node?_file_iff.1 there)
  · exact settled.lists_of_created created has

theorem of_run
    {prepared written : FileTree} {groups : ModuleGroups} {manifest : Manifest}
    (managed : tree.IsManaged folder)
    (run : PackRun tree prepared written other folder groups manifest)
    (distinct : (groups.map Prod.fst).Nodup) : other.IsManaged folder := by
  obtain ⟨held, lists⟩ := managed.lists_of_created run.created run.hasFolder
  exact Or.inr (.listed (heldAfter groups held) run.hasFolder_final
    (usable_of_createFolders run.created) (run.lists distinct lists))

theorem of_deleted
    {mode : SetMode} {module : UInt32} {content : ByteArray}
    (managed : tree.IsManaged folder)
    (isRead : tree.read (folder.join (mode.fileName module)) = .ok content)
    (deleted : tree.remove? (folder.join (mode.fileName module)) = some other) :
    other.IsManaged folder := by
  rcases managed with noSets | settled
  · have isFile := node?_of_read isRead
    rw [place_join folder (SetMode.isOpenName_fileName mode module).isName] at isFile
    exact absurd isFile (noSets.noSet mode module content)
  · exact Or.inr (settled.of_deleted isRead deleted)

theorem of_leavesAlone
    (managed : tree.IsManaged folder) (leaves : tree.LeavesAlone other folder) :
    other.IsManaged folder :=
  managed.imp (·.of_leavesAlone leaves) (·.of_leavesAlone leaves)

end IsManaged

end FileTree

/-- The trees that come about when banks are packed into a folder without sets, by a
command of their own or at the end of a run of all stages. In between sets may be deleted,
and anything may happen that leaves the names in the folder alone. -/
inductive BankHistory (folder : Path) : FileTree → Prop
  | start {tree : FileTree} (noSets : tree.HasNoSets folder) : BankHistory folder tree
  | packed {tree : FileTree} {banks : List Path} {selected : Option UInt32}
      {packing : Packing} {session : Session} (before : BankHistory folder tree)
      (run : (packBanks banks folder selected).runOn tree = (.ok packing, session)) :
      BankHistory folder session.files
  | deleted {tree other : FileTree} {mode : SetMode} {module : UInt32}
      {content : ByteArray} (before : BankHistory folder tree)
      (isRead : tree.read (folder.join (mode.fileName module)) = .ok content)
      (deleted : tree.remove? (folder.join (mode.fileName module)) = some other) :
      BankHistory folder other
  | elsewhere {tree other : FileTree} (before : BankHistory folder tree)
      (leaves : tree.LeavesAlone other folder) : BankHistory folder other

variable {tree : FileTree} {session after : Session} {banks : List Path} {folder : Path}
  {items : List Item} {selected : Option UInt32} {packing : Packing} {count : Nat}

theorem onlyReads_readBanks (banks : List Path) : (readBanks banks).OnlyReads := by
  have isChange := FileTree.isChange_eq
  exact (Job.relates_mapM isChange fun bank _ => Job.relates_readRecords isChange bank).bind
    isChange fun _ => Job.relates_pure isChange _

theorem yields_packBanks
    (yields : (packBanks banks folder selected).Yields session packing after) :
    ∃ items between, (readBanks banks).Yields session items between ∧
      between.files = session.files ∧
      (pack items folder selected).Yields between packing after := by
  rw [packBanks, Job.yields_bind] at yields
  obtain ⟨items, between, reads, packs⟩ := yields
  exact ⟨items, between, reads,
    (Job.relates_iff_ends.1 (onlyReads_readBanks banks)).yields reads, packs⟩

/-- The modules of a packing are the ones of the items, in the order of their first
items. -/
theorem modules_of_yields_pack
    (yields : (pack items folder selected).Yields session packing after) :
    packing.modules = ((selectedItems selected items).map Item.module).eraseDups := by
  by_cases nothing : selectedItems selected items = []
  · rw [(yields_pack_of_nil nothing yields).1, nothing]
    rfl
  · rw [packing_of_yields nothing yields]
    exact keys_groupByModule _

theorem folder_of_yields_packBanks
    (yields : (packBanks banks folder selected).Yields session packing after) :
    packing.folder = folder := by
  obtain ⟨items, _, _, _, packs⟩ := yields_packBanks yields
  by_cases nothing : selectedItems selected items = []
  · rw [(yields_pack_of_nil nothing packs).1]
  · rw [packing_of_yields nothing packs]

theorem BankHistory.isManaged (history : BankHistory folder tree) :
    tree.IsManaged folder := by
  induction history with
  | start noSets => exact Or.inl noSets
  | @packed tree banks selected packing session _ run inductionHypothesis =>
      obtain ⟨items, between, _, rfl, packs⟩ :=
        yields_packBanks (Job.yields_iff_runOn.2 run)
      by_cases nothing : selectedItems selected items = []
      · obtain ⟨_, rfl⟩ := yields_pack_of_nil nothing packs
        exact inductionHypothesis
      · obtain ⟨_, _, passes⟩ := yields_pack nothing packs
        exact inductionHypothesis.of_run passes (holds_groupByModule _).distinct
  | deleted _ isRead deleted inductionHypothesis =>
      exact inductionHypothesis.of_deleted isRead deleted
  | elsewhere _ leaves inductionHypothesis =>
      exact inductionHypothesis.of_leavesAlone leaves

/-- The number is the one of the sets of the modules, two for each, and of the sets of
other modules that the manifest lists. When nothing but packing has ever put sets into the
folder, it is the number of all sets in it. -/
structure FileTree.CountsSets (tree files : FileTree) (folder : Path)
    (modules : List UInt32) (count : Nat) : Prop where
  count_eq :
    count = 2 * modules.length + ((files.manifest folder).others modules).length
  written : ∀ module ∈ modules, ∀ mode, (mode, module) ∈ files.setsIn folder
  ofHistory : BankHistory folder tree →
    count = (files.setsIn folder).ncard ∧
      (count = 2 * modules.length ↔ ∀ set ∈ files.setsIn folder, set.2 ∈ modules)

namespace PackRun

open FileTree

variable {prepared written final : FileTree} {groups : ModuleGroups} {manifest : Manifest}

theorem mem_setsIn
    (run : PackRun tree prepared written final folder groups manifest)
    {module : UInt32} (member : module ∈ groups.map Prod.fst) (mode : SetMode) :
    (mode, module) ∈ final.setsIn folder := by
  obtain ⟨⟨first, items⟩, isGroup, same⟩ := List.mem_map.1 member
  obtain rfl : first = module := same
  have fits := run.sets.fits _ (mem_groupFiles.2 ⟨first, items, mode, isGroup, rfl⟩)
  have isName := (SetMode.isOpenName_fileName mode first).isName
  exact ⟨_, (run.hasFolder_final.read_join isName).2
    ⟨fits, run.node?_set_of_mem isGroup mode⟩⟩

theorem countsSets
    (run : PackRun tree prepared written final folder groups manifest)
    (distinct : (groups.map Prod.fst).Nodup) :
    tree.CountsSets final folder (groups.map Prod.fst) manifest.sets.length := by
  have count : manifest.sets.length = 2 * (groups.map Prod.fst).length +
      (manifest.others (groups.map Prod.fst)).length := by
    rw [run.merged]
    exact length_mergeManifest written folder groups
  constructor
  case count_eq =>
    rw [run.manifest_final]
    exact count
  case written => exact fun module member mode => run.mem_setsIn member mode
  case ofHistory =>
    intro history
    obtain ⟨held, lists⟩ := history.isManaged.lists_of_created run.created run.hasFolder
    have describes := run.describes distinct lists
    refine ⟨describes.length_eq_ncard, ?_⟩
    rw [count, Nat.add_eq_left, List.length_eq_zero_iff, describes.others_eq_nil_iff]

end PackRun

theorem countsSets_of_yields
    (yields : (packBanks banks folder selected).Yields session packing after)
    (something : packing.modules ≠ []) :
    session.files.CountsSets after.files folder packing.modules
      packing.manifest.sets.length := by
  obtain ⟨items, between, _, same, packs⟩ := yields_packBanks yields
  by_cases nothing : selectedItems selected items = []
  · rw [(yields_pack_of_nil nothing packs).1] at something
    exact absurd rfl something
  · obtain ⟨_, _, run⟩ := yields_pack nothing packs
    have counts := run.countsSets (holds_groupByModule _).distinct
    rw [same] at counts
    rw [packing_of_yields nothing packs]
    exact counts

end LectureQuiz
