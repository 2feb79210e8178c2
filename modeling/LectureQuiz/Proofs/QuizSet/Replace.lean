import LectureQuiz.Proofs.FileTree.Entry
import LectureQuiz.Proofs.FileTree.Place
import LectureQuiz.Proofs.Job
import LectureQuiz.Proofs.QuizSet

/-!
# Replacing files in a folder

A file is replaced by way of its draft. When all goes well the file has its new
content, the draft is gone, and nothing else has changed; so several files of
different names can be replaced one after the other.
-/

namespace LectureQuiz

theorem draftName_injective {name other : String}
    (same : draftName name = draftName other) : name = other := by
  have texts := congrArg String.toList same
  rw [draftName_toList, draftName_toList] at texts
  simpa [String.toList_inj] using texts

namespace FileTree

variable {tree middle other : FileTree} {folder : Path} {name : String}

/-- The place is the one of the name in the folder, or of the name's draft. -/
def Touches (folder : Path) (name : String) (place : Location) : Prop :=
  place = folder.place ++ [name] ∨ place = folder.place ++ [draftName name]

theorem not_touches_of_ne
    {otherName : String} {place : Location} (isOpen : IsOpenName name)
    (isOtherOpen : IsOpenName otherName) (different : name ≠ otherName)
    (touches : Touches folder name place) : ¬Touches folder otherName place := by
  rintro (same | same) <;> rcases touches with rfl | rfl <;>
    have names := List.append_inj_right same rfl
  · exact different (by simpa using names)
  · exact isOtherOpen.ne_draftName name (by simpa using names.symm)
  · exact isOpen.ne_draftName otherName (by simpa using names)
  · exact different (draftName_injective (by simpa using names))

/-- The second tree is the first one with the files of the folder replaced. -/
structure Replaces (tree other : FileTree) (folder : Path)
    (written : List (String × String)) : Prop where
  isOpen : ∀ file ∈ written, IsOpenName file.1
  fits : ∀ file ∈ written, folder.Fits file.1
  notFolder : ∀ file ∈ written, ∀ place, Touches folder file.1 place →
    tree.node? place ≠ some .folder
  present : ∀ file ∈ written,
    other.node? (folder.place ++ [file.1]) = some (.file file.2.toUTF8)
  noDraft : ∀ file ∈ written,
    other.node? (folder.place ++ [draftName file.1]) = none
  elsewhere : ∀ place, (∀ file ∈ written, ¬Touches folder file.1 place) →
    other.node? place = tree.node? place

namespace Replaces

variable {written more : List (String × String)}

theorem nil (tree : FileTree) (folder : Path) : tree.Replaces tree folder [] where
  isOpen := nofun
  fits := nofun
  notFolder := nofun
  present := nofun
  noDraft := nofun
  elsewhere := fun _ _ => rfl

theorem append
    (first : tree.Replaces middle folder written)
    (second : middle.Replaces other folder more)
    (apart : ∀ file ∈ written, ∀ later ∈ more, file.1 ≠ later.1) :
    tree.Replaces other folder (written ++ more) := by
  have notEarlier {later : String × String} (isLater : later ∈ more)
      {place : Location} (touches : Touches folder later.1 place) :
      ∀ file ∈ written, ¬Touches folder file.1 place := fun file isEarlier =>
    not_touches_of_ne (second.isOpen later isLater) (first.isOpen file isEarlier)
      (apart file isEarlier later isLater).symm touches
  have notLater {file : String × String} (isEarlier : file ∈ written)
      {place : Location} (touches : Touches folder file.1 place) :
      ∀ later ∈ more, ¬Touches folder later.1 place := fun later isLater =>
    not_touches_of_ne (first.isOpen file isEarlier) (second.isOpen later isLater)
      (apart file isEarlier later isLater) touches
  constructor
  case isOpen =>
    exact List.forall_mem_append.2 ⟨first.isOpen, second.isOpen⟩
  case fits =>
    exact List.forall_mem_append.2 ⟨first.fits, second.fits⟩
  case notFolder =>
    refine List.forall_mem_append.2 ⟨first.notFolder, ?_⟩
    intro later isLater place touches
    rw [← first.elsewhere place (notEarlier isLater touches)]
    exact second.notFolder later isLater place touches
  case present =>
    refine List.forall_mem_append.2 ⟨?_, second.present⟩
    intro file isEarlier
    rw [second.elsewhere _ (notLater isEarlier (Or.inl rfl))]
    exact first.present file isEarlier
  case noDraft =>
    refine List.forall_mem_append.2 ⟨?_, second.noDraft⟩
    intro file isEarlier
    rw [second.elsewhere _ (notLater isEarlier (Or.inr rfl))]
    exact first.noDraft file isEarlier
  case elsewhere =>
    intro place untouched
    have ⟨notFirst, notSecond⟩ := List.forall_mem_append.1 untouched
    rw [second.elsewhere place notSecond, first.elsewhere place notFirst]

theorem folders
    (replaces : tree.Replaces other folder written) (place : Location)
    (isFolder : tree.node? place = some .folder) :
    other.node? place = some .folder := by
  rw [replaces.elsewhere place, isFolder]
  intro file member touches
  exact replaces.notFolder file member place touches isFolder

theorem hasFolder
    (replaces : tree.Replaces other folder written)
    {path : Path} {location : Location} (has : tree.HasFolder path location) :
    other.HasFolder path location :=
  has.of_folders replaces.folders

theorem node?_of_forall_ne
    (replaces : tree.Replaces other folder written) (isOpen : IsOpenName name)
    (apart : ∀ file ∈ written, file.1 ≠ name) :
    other.node? (folder.place ++ [name]) = tree.node? (folder.place ++ [name]) :=
  replaces.elsewhere _ fun file member =>
    not_touches_of_ne isOpen (replaces.isOpen file member)
      (apart file member).symm (Or.inl rfl)

end Replaces

end FileTree

variable {session after : Session} {folder : Path}

theorem yields_replaceFile
    (has : session.files.HasFolder folder folder.place)
    {name content : String} (isOpen : IsOpenName name) {value : Unit}
    (run : (replaceFile folder name content).Yields session value after) :
    ∃ other, after = { session with files := other } ∧
      session.files.Replaces other folder [(name, content)] := by
  have isName := isOpen.isName
  have isDraft := isName_draftName isOpen.noSlash
  simp only [replaceFile, Job.yields_bind, Job.yields_writeText,
    Job.yields_moveFile] at run
  obtain ⟨_, _, ⟨drafted, write, rfl⟩, moved, move, rfl⟩ := run
  refine ⟨moved, rfl, ?_⟩
  obtain ⟨_, noFolder, rfl⟩ := (has.write_join isDraft).1 write
  have insideDraft := isDraft.isAnchor_append folder.place
  have inside := isName.isAnchor_append folder.place
  have apart : folder.place ++ [name] ≠ folder.place ++ [draftName name] := by
    simpa using isOpen.ne_draftName name
  have folders (place : Location)
      (isFolder : session.files.node? place = some .folder) :
      (session.files.put (folder.place ++ [draftName name])
        (.file content.toUTF8)).node? place = some .folder := by
    rw [FileTree.node?_put_of_ne _ _ ?_, isFolder]
    rintro rfl
    exact noFolder isFolder
  obtain ⟨_, fits, notFolder, bytes, there, rfl⟩ :=
    ((has.of_folders folders).moveFile_join isDraft isName).1 move
  rw [FileTree.node?_put_of_ne _ _ apart] at notFolder
  rw [FileTree.node?_put_self _ _ insideDraft] at there
  obtain rfl : content.toUTF8 = bytes := by simpa using there
  constructor
  case isOpen => simpa using isOpen
  case fits => simpa using fits
  case notFolder =>
    rintro file member place touches
    obtain rfl := List.mem_singleton.1 member
    rcases touches with rfl | rfl
    · exact notFolder
    · exact noFolder
  case present =>
    rintro file member
    obtain rfl := List.mem_singleton.1 member
    exact FileTree.node?_put_self _ _ inside
  case noDraft =>
    rintro file member
    obtain rfl := List.mem_singleton.1 member
    rw [FileTree.node?_put_of_ne _ _ apart.symm]
    exact FileTree.node?_erase_self _ insideDraft
  case elsewhere =>
    intro place untouched
    obtain ⟨notName, notDraft⟩ :=
      not_or.1 (untouched (name, content) List.mem_cons_self)
    rw [FileTree.node?_put_of_ne _ _ notName,
      FileTree.node?_erase_of_ne _ notDraft, FileTree.node?_put_of_ne _ _ notDraft]

/-- The files that hold the sets of a module. -/
def setFiles (module : UInt32) (items : List Item) : List (String × String) :=
  SetMode.all.map fun mode => (mode.fileName module, Records.render items)

theorem mem_setFiles {module : UInt32} {items : List Item} {file : String × String} :
    file ∈ setFiles module items ↔
      ∃ mode : SetMode, file = (mode.fileName module, Records.render items) := by
  constructor
  · intro member
    obtain ⟨mode, _, rfl⟩ := List.mem_map.1 member
    exact ⟨mode, rfl⟩
  · rintro ⟨mode, rfl⟩
    refine List.mem_map.2 ⟨mode, ?_, rfl⟩
    cases mode <;> simp [SetMode.all]

theorem yields_writeSets
    (has : session.files.HasFolder folder folder.place)
    {module : UInt32} {items : List Item} {entries : List SetEntry}
    (run : (writeSets folder module items).Yields session entries after) :
    entries = SetMode.all.map (entryOf module items) ∧
      ∃ other, after = { session with files := other } ∧
        session.files.Replaces other folder (setFiles module items) := by
  simp only [writeSets, SetMode.all, Job.yields_bind, Job.yields_pure,
    Job.yields_forM_cons, Job.yields_forM_nil] at run
  obtain ⟨_, _, ⟨_, practice, _, memorize, rfl⟩, rfl, rfl⟩ := run
  obtain ⟨first, rfl, replacesFirst⟩ := yields_replaceFile has
    (SetMode.isOpenName_fileName .practice module) practice
  obtain ⟨second, rfl, replacesSecond⟩ := yields_replaceFile
    (replacesFirst.hasFolder has)
    (SetMode.isOpenName_fileName .memorize module) memorize
  refine ⟨rfl, second, rfl, replacesFirst.append replacesSecond ?_⟩
  rintro file member later isLater same
  obtain rfl := List.mem_singleton.1 member
  obtain rfl := List.mem_singleton.1 isLater
  exact absurd (SetMode.fileName_inj.1 same).1 (by decide)

/-- The files that hold the sets of all groups. -/
def groupFiles (groups : ModuleGroups) : List (String × String) :=
  groups.flatMap fun (module, items) => setFiles module items

/-- The entries of the sets of all groups. -/
def groupEntries (groups : ModuleGroups) : List SetEntry :=
  groups.flatMap fun (module, items) => SetMode.all.map (entryOf module items)

theorem mem_groupFiles {groups : ModuleGroups} {file : String × String} :
    file ∈ groupFiles groups ↔
      ∃ (module : UInt32) (items : List Item) (mode : SetMode),
        (module, items) ∈ groups ∧
          file = (mode.fileName module, Records.render items) := by
  simp only [groupFiles, List.mem_flatMap, Prod.exists, mem_setFiles]
  constructor
  · rintro ⟨module, items, member, mode, rfl⟩
    exact ⟨module, items, mode, member, rfl⟩
  · rintro ⟨module, items, mode, member, rfl⟩
    exact ⟨module, items, member, mode, rfl⟩

/-- The sets of different modules are written one module after the other. -/
theorem yields_mapM_writeSets
    {groups : ModuleGroups} (distinct : (groups.map Prod.fst).Nodup)
    (has : session.files.HasFolder folder folder.place)
    {entries : List (List SetEntry)}
    (run : (groups.mapM fun (module, items) =>
      writeSets folder module items).Yields session entries after) :
    entries.flatten = groupEntries groups ∧
      ∃ other, after = { session with files := other } ∧
        session.files.Replaces other folder (groupFiles groups) := by
  induction groups generalizing session entries with
  | nil =>
      obtain ⟨rfl, rfl⟩ := Job.yields_mapM_nil.1 run
      exact ⟨rfl, _, rfl, .nil _ _⟩
  | cons group rest inductionHypothesis =>
      obtain ⟨module, items⟩ := group
      have ⟨isNew, restDistinct⟩ := List.nodup_cons.1 distinct
      obtain ⟨_, _, others, runFirst, runRest, rfl⟩ := Job.yields_mapM_cons.1 run
      obtain ⟨rfl, first, rfl, replaces⟩ := yields_writeSets has runFirst
      obtain ⟨sameRest, last, rfl, replacesRest⟩ :=
        inductionHypothesis restDistinct (replaces.hasFolder has) runRest
      refine ⟨?_, last, rfl, replaces.append replacesRest ?_⟩
      · rw [List.flatten_cons, sameRest]
        rfl
      intro file member later isLater same
      obtain ⟨mode, rfl⟩ := mem_setFiles.1 member
      obtain ⟨otherModule, group, otherMode, isGroup, rfl⟩ :=
        mem_groupFiles.1 isLater
      obtain ⟨_, rfl⟩ := SetMode.fileName_inj.1 same
      exact isNew (List.mem_map.2 ⟨_, isGroup, rfl⟩)

end LectureQuiz
