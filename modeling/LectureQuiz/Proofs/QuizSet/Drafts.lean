import LectureQuiz.Proofs.FileTree.Contents
import LectureQuiz.Proofs.QuizSet.Failure

/-!
# Drafts that are left behind

A packing writes every file as a draft first and then gives the draft the name of the file.
When it cannot do the second, it stops and leaves the draft. This is the only way in which
a draft stays: there is never more than one, and the error tells which.
-/

namespace LectureQuiz

variable {folder : Path} {name : String} {tree middle other : FileTree}
  {session after : Session}

theorem draftName_utf8ByteSize (name : String) :
    (draftName name).utf8ByteSize = name.utf8ByteSize + 5 := by
  have text : draftName name = "." ++ name ++ ".tmp" := by
    simp [draftName, toString]
  have marks : ".".utf8ByteSize = 1 ∧ ".tmp".utf8ByteSize = 4 := by decide
  rw [text, String.utf8ByteSize_append, String.utf8ByteSize_append, marks.1, marks.2]
  omega

/-- Where there is room for a draft there is room for the file. -/
theorem Path.Fits.of_draftName
    (isOpen : IsOpenName name) (fits : folder.Fits (draftName name)) : folder.Fits name := by
  have isDraft := isName_draftName isOpen.noSlash
  have size := draftName_utf8ByteSize name
  obtain ⟨checked, short⟩ := fits
  rw [join_eq_front folder isDraft.noSlash, FileTree.checkPath_eq_ok] at checked
  obtain ⟨noNull, shortPath, _⟩ := checked
  rw [String.utf8ByteSize_append] at shortPath
  refine ⟨?_, by omega⟩
  rw [join_eq_front folder isOpen.noSlash, FileTree.checkPath_eq_ok]
  refine ⟨?_, ?_, ?_⟩
  · simp only [String.toList_append, List.mem_append, draftName_toList, List.mem_cons,
      not_or] at noNull ⊢
    exact ⟨noNull.1, noNull.2.2.1⟩
  · rw [String.utf8ByteSize_append]
    omega
  · intro isEmpty
    exact isOpen.isName.ne_empty (String.append_eq_empty_iff.1 isEmpty).2

theorem Error.eq_of_ofFault_eq_inaccessible
    {path target : Path} {fault : FileFault}
    (same : Error.ofFault path fault = .inaccessible target) : path = target := by
  cases fault <;> cases same <;> rfl

namespace FileTree

/-- A file is at the place. -/
def HasFile (tree : FileTree) (place : Location) : Prop :=
  ∃ content, tree.node? place = some (.file content)

/-- What a job that ended so has made of the drafts in a folder. The one that the error
tells of is there, because a folder is in the place of its file, and no other is new. -/
structure LeavesDrafts (folder : Path) (ending : Option Error) (tree other : FileTree) :
    Prop where
  stuck : ∀ name, IsOpenName name → ending = some (.inaccessible (folder.join name)) →
    other.HasFile (folder.place ++ [draftName name]) ∧
      other.node? (folder.place ++ [name]) = some .folder
  clean : ∀ name, IsOpenName name → ending ≠ some (.inaccessible (folder.join name)) →
    other.HasFile (folder.place ++ [draftName name]) →
      tree.HasFile (folder.place ++ [draftName name])

/-- The same of a job that needs the folder, and keeps it. -/
def KeepsDrafts (folder : Path) (ending : Option Error) (tree other : FileTree) : Prop :=
  tree.HasFolder folder folder.place →
    other.HasFolder folder folder.place ∧ LeavesDrafts folder ending tree other

/-- An ending that tells of no file of the folder leaves no draft. -/
theorem LeavesDrafts.of_sameFile
    {ending : Option Error} (same : ∀ place, tree.SameFile other place)
    (elsewhere : ∀ name, IsOpenName name →
      ending ≠ some (.inaccessible (folder.join name))) :
    LeavesDrafts folder ending tree other where
  stuck name isOpen isError := absurd isError (elsewhere name isOpen)
  clean _ _ _ := fun ⟨content, isFile⟩ => ⟨content, (same _ content).1 isFile⟩

theorem LeavesDrafts.of_grows (grows : tree.Grows other) :
    LeavesDrafts folder none tree other :=
  .of_sameFile grows.sameFile fun _ _ => (Option.some_ne_none _).symm

theorem LeavesDrafts.trans
    {ending : Option Error} (first : LeavesDrafts folder none tree middle)
    (second : LeavesDrafts folder ending middle other) :
    LeavesDrafts folder ending tree other where
  stuck := second.stuck
  clean name isOpen notStuck isDraft :=
    first.clean name isOpen nofun (second.clean name isOpen notStuck isDraft)

theorem isCourse_leavesDrafts (folder : Path) : IsCourse (LeavesDrafts folder) where
  refl tree := .of_grows (.refl tree)
  trans := .trans

theorem isCourse_keepsDrafts (folder : Path) : IsCourse (KeepsDrafts folder) where
  refl tree has := ⟨has, (isCourse_leavesDrafts folder).refl tree⟩
  trans := by
    intro ending tree middle other first second has
    obtain ⟨hasMiddle, leaves⟩ := first has
    obtain ⟨hasOther, leavesMore⟩ := second hasMiddle
    exact ⟨hasOther, leaves.trans leavesMore⟩

end FileTree

open FileTree

theorem leavesDrafts_of_yields
    (has : session.files.HasFolder folder folder.place) {content : String}
    (isOpen : IsOpenName name) {value : Unit}
    (yields : (replaceFile folder name content).Yields session value after) :
    after.files.HasFolder folder folder.place ∧
      LeavesDrafts folder none session.files after.files := by
  obtain ⟨other, rfl, replaces⟩ := yields_replaceFile has isOpen yields
  refine ⟨replaces.hasFolder has, fun _ _ => nofun, ?_⟩
  intro otherName isOtherOpen _ isDraft
  obtain ⟨bytes, isFile⟩ := isDraft
  by_cases same : otherName = name
  · rw [same, replaces.noDraft (name, content) List.mem_cons_self] at isFile
    exact absurd isFile nofun
  · rw [replaces.elsewhere] at isFile
    · exact ⟨bytes, isFile⟩
    · intro file member
      obtain rfl := List.mem_singleton.1 member
      exact not_touches_of_ne isOtherOpen isOpen same (Or.inr rfl)

/-- The draft stays when its file cannot be replaced. -/
theorem leavesDrafts_of_fails
    (has : session.files.HasFolder folder folder.place) {content : String}
    (isOpen : IsOpenName name) {error : Error}
    (fails : (replaceFile folder name content).Fails session error after) :
    after.files.HasFolder folder folder.place ∧
      LeavesDrafts folder (some error) session.files after.files := by
  have isName := isOpen.isName
  have isDraft := isName_draftName isOpen.noSlash
  simp only [replaceFile, Job.fails_bind, Job.fails_writeText, Job.yields_writeText,
    Job.fails_moveFile] at fails
  rcases fails with ⟨fault, _, rfl, rfl⟩ | ⟨_, _, ⟨drafted, write, rfl⟩, fault, stuck, rfl, rfl⟩
  · refine ⟨has, .of_sameFile (fun _ => .refl _ _) fun otherName isOtherOpen isError => ?_⟩
    have samePath := Error.eq_of_ofFault_eq_inaccessible (Option.some.inj isError)
    have same := (Path.join_inj isDraft.noSlash isOtherOpen.noSlash).1 samePath
    exact isOtherOpen.ne_draftName name same.symm
  obtain ⟨draftFits, notFolder, rfl⟩ := (has.write_join isDraft).1 write
  have fits := draftFits.of_draftName isOpen
  have hasStill : (session.files.put (folder.place ++ [draftName name])
      (.file content.toUTF8)).HasFolder folder folder.place :=
    has.of_folders (keepsFolders_put notFolder _)
  have there := node?_put_self session.files (.file content.toUTF8)
    (isDraft.isAnchor_append folder.place)
  have taken : (session.files.put (folder.place ++ [draftName name])
      (.file content.toUTF8)).node? (folder.place ++ [name]) = some .folder := by
    refine Classical.byContradiction fun free => ?_
    have moves := (hasStill.moveFile_join isDraft isName).2
      ⟨draftFits, fits, free, _, there, rfl⟩
    exact absurd (stuck.symm.trans moves) nofun
  have isFault := hasStill.moveFile_join_of_folder isDraft isName draftFits fits there taken
  obtain rfl : fault = .isAFolder := Except.error.inj (stuck.symm.trans isFault)
  refine ⟨hasStill, ?_, ?_⟩
  · intro otherName isOtherOpen isError
    have samePath := Error.eq_of_ofFault_eq_inaccessible (Option.some.inj isError)
    obtain rfl := (Path.join_inj isOpen.noSlash isOtherOpen.noSlash).1 samePath
    exact ⟨⟨_, there⟩, taken⟩
  · intro otherName isOtherOpen otherError isFile
    have different : folder.place ++ [draftName otherName] ≠
        folder.place ++ [draftName name] := by
      intro same
      obtain rfl := draftName_injective (List.singleton_inj.1 (List.append_cancel_left same))
      exact otherError rfl
    obtain ⟨bytes, isFile⟩ := isFile
    rw [node?_put_of_ne _ _ different] at isFile
    exact ⟨bytes, isFile⟩

theorem ends_replaceFile (isOpen : IsOpenName name) (content : String) :
    (replaceFile folder name content).Ends (KeepsDrafts folder) where
  yields run has := leavesDrafts_of_yields has isOpen run
  fails run has := leavesDrafts_of_fails has isOpen run

/-! ## Packing -/

theorem ends_writeSets (folder : Path) (module : UInt32) (items : List Item) :
    (writeSets folder module items).Ends (KeepsDrafts folder) := by
  have isCourse := isCourse_keepsDrafts folder
  refine Job.Ends.bind isCourse (Job.ends_forM isCourse fun mode _ => ?_) fun _ =>
    Job.ends_pure isCourse _
  exact ends_replaceFile (SetMode.isOpenName_fileName mode module) _

/-- What is left of a packing when its folder is there. -/
def packGroups (groups : ModuleGroups) (folder : Path) : Job Packing := do
  let written ← groups.mapM fun (module, group) => writeSets folder module group
  let modules := groups.map Prod.fst
  let manifest := mergeManifest (← Job.files) folder modules written.flatten
  replaceFile folder Manifest.fileName manifest.toJson.pretty
  return ⟨folder, modules, manifest⟩

theorem ends_packGroups (groups : ModuleGroups) (folder : Path) :
    (packGroups groups folder).Ends (KeepsDrafts folder) := by
  have isCourse := isCourse_keepsDrafts folder
  refine Job.Ends.bind isCourse (Job.ends_mapM isCourse fun group _ => ?_) fun _ =>
    Job.Ends.bind isCourse (Job.ends_files isCourse) fun _ =>
      Job.Ends.bind isCourse (ends_replaceFile Manifest.isOpenName_fileName _) fun _ =>
        Job.ends_pure isCourse _
  exact ends_writeSets folder group.1 group.2

theorem ends_pack (items : List Item) (folder : Path) (module : Option UInt32) :
    (pack items folder module).Ends (LeavesDrafts folder) := by
  rw [pack]
  split
  · exact Job.ends_pure (isCourse_leavesDrafts folder) _
  have ends := ends_packGroups
    (groupByModule (items.filter fun item => module.all (item.module == ·))) folder
  constructor
  case yields =>
    intro session after packing yields
    obtain ⟨_, _, creates, packs⟩ := Job.yields_bind.1 yields
    obtain ⟨made, created, rfl⟩ := Job.yields_createFolders.1 creates
    obtain ⟨grows, location, has⟩ := createFolders_ok created
    obtain ⟨_, leaves⟩ := ends.yields packs (has.eq_place ▸ has)
    exact (LeavesDrafts.of_grows grows).trans leaves
  case fails =>
    intro session after error fails
    rcases Job.fails_bind.1 fails with refuses | ⟨_, _, creates, stops⟩
    · obtain ⟨fault, made, created, rfl, rfl⟩ := Job.fails_createFolders.1 refuses
      have grows := session.files.grows_createFolders folder
      rw [created] at grows
      refine .of_sameFile grows.sameFile fun name isOpen isError => ?_
      exact folder.ne_join isOpen.noSlash isOpen.isName.ne_empty
        (Error.eq_of_ofFault_eq_inaccessible (Option.some.inj isError))
    · obtain ⟨made, created, rfl⟩ := Job.yields_createFolders.1 creates
      obtain ⟨grows, location, has⟩ := createFolders_ok created
      obtain ⟨_, leaves⟩ := ends.fails stops (has.eq_place ▸ has)
      exact (LeavesDrafts.of_grows grows).trans leaves

/-- A name under which packing writes a file. -/
inductive IsPublishedName : String → Prop
  | set (mode : SetMode) (module : UInt32) : IsPublishedName (mode.fileName module)
  | manifest : IsPublishedName Manifest.fileName

theorem IsPublishedName.isOpen (published : IsPublishedName name) : IsOpenName name := by
  cases published with
  | set mode module => exact SetMode.isOpenName_fileName mode module
  | manifest => exact Manifest.isOpenName_fileName

/-- The draft of the file is there, and was not there before. -/
def FileTree.HasNewDraft (tree other : FileTree) (folder : Path) (name : String) : Prop :=
  other.HasFile (folder.place ++ [draftName name]) ∧
    ¬tree.HasFile (folder.place ++ [draftName name])

/-- A packing that succeeds leaves no draft. One that fails leaves the draft of the file
that its error tells of, because a folder is in the place of the file, and no other. -/
theorem pack_leaves_draft
    (items : List Item) (folder : Path) (module : Option UInt32) (tree : FileTree)
    (published : IsPublishedName name) :
    (∀ packing after, (pack items folder module).runOn tree = (.ok packing, after) →
        ¬tree.HasNewDraft after.files folder name) ∧
      ∀ error after, (pack items folder module).runOn tree = (.error error, after) →
        (tree.HasNewDraft after.files folder name ↔
          error = .inaccessible (folder.join name) ∧
            ¬tree.HasFile (folder.place ++ [draftName name])) ∧
          (error = .inaccessible (folder.join name) →
            after.files.node? (folder.place ++ [name]) = some .folder) := by
  have isOpen := published.isOpen
  constructor
  · intro packing after run
    have leaves := (ends_pack items folder module).yields (Job.yields_iff_runOn.2 run)
    exact fun newDraft => newDraft.2 (leaves.clean name isOpen nofun newDraft.1)
  · intro error after run
    have leaves := (ends_pack items folder module).fails (Job.fails_iff_runOn.2 run)
    refine ⟨⟨?_, ?_⟩, ?_⟩
    · intro newDraft
      refine ⟨?_, newDraft.2⟩
      refine Classical.byContradiction fun otherError => newDraft.2 ?_
      exact leaves.clean name isOpen (fun isError => otherError (Option.some.inj isError))
        newDraft.1
    · rintro ⟨rfl, notThere⟩
      exact ⟨(leaves.stuck name isOpen rfl).1, notThere⟩
    · rintro rfl
      exact (leaves.stuck name isOpen rfl).2

theorem FileTree.hasFile_of_isFile {path : Path} (isFile : tree.isFile path = true) :
    tree.HasFile path.place := by
  rw [isFile_eq, Option.isSome_iff_exists] at isFile
  obtain ⟨content, isRead⟩ := isFile
  exact ⟨content, node?_of_read (toOption_read_eq_some.1 isRead)⟩

theorem hasNewDraft_blockedFolder :
    blockedFolder.HasNewDraft ((pack [sampleItem 6] ⟨"o"⟩ none).runOn blockedFolder).2.files
      ⟨"o"⟩ (SetMode.memorize.fileName 6) := by
  have isFile : ((pack [sampleItem 6] ⟨"o"⟩ none).runOn blockedFolder).2.files.isFile
      ⟨"o/.memorize_m6.jsonl.tmp"⟩ = true := by
    decide +kernel
  have place : (Path.mk "o").place ++ [draftName (SetMode.memorize.fileName 6)] =
      (Path.mk "o/.memorize_m6.jsonl.tmp").place := by
    decide +kernel
  have absent : blockedFolder.node? (Path.mk "o/.memorize_m6.jsonl.tmp").place = none := by
    decide +kernel
  rw [FileTree.HasNewDraft, place]
  refine ⟨FileTree.hasFile_of_isFile isFile, ?_⟩
  rintro ⟨content, isThere⟩
  exact absurd (absent.symm.trans isThere) nofun

/-- The draft of the second set is left, and none where the folder is free. -/
theorem pack_leaves_draft_of_blockedFolder :
    (∃ error after,
        (pack [sampleItem 6] ⟨"o"⟩ none).runOn blockedFolder = (.error error, after) ∧
          IsPublishedName (SetMode.memorize.fileName 6) ∧
          blockedFolder.HasNewDraft after.files ⟨"o"⟩ (SetMode.memorize.fileName 6) ∧
          error = .inaccessible ((Path.mk "o").join (SetMode.memorize.fileName 6)) ∧
          after.files.node? ((Path.mk "o").place ++ [SetMode.memorize.fileName 6]) =
            some .folder) ∧
      ∃ packing after, (pack [sampleItem 6] ⟨"o"⟩ none).runOn .empty = (.ok packing, after) ∧
        ¬FileTree.empty.HasNewDraft after.files ⟨"o"⟩ (SetMode.memorize.fileName 6) := by
  have ⟨failed, succeeded⟩ :
      ((pack [sampleItem 6] ⟨"o"⟩ none).runOn blockedFolder).1.isOk = false ∧
        ((pack [sampleItem 6] ⟨"o"⟩ none).runOn .empty).1.isOk = true := by
    decide +kernel
  obtain ⟨error, failedRun⟩ := Job.exists_of_not_isOk failed
  obtain ⟨packing, run⟩ := Job.exists_of_isOk succeeded
  have published : IsPublishedName (SetMode.memorize.fileName 6) := .set .memorize 6
  have newDraft := hasNewDraft_blockedFolder
  have ⟨left, stuck⟩ := (pack_leaves_draft [sampleItem 6] ⟨"o"⟩ none blockedFolder
    published).2 _ _ failedRun
  have ⟨isError, _⟩ := left.1 newDraft
  have clean := (pack_leaves_draft [sampleItem 6] ⟨"o"⟩ none .empty published).1 _ _ run
  exact ⟨⟨error, _, failedRun, published, newDraft, isError, stuck isError⟩,
    packing, _, run, clean⟩

/-- A packing does not always clear its drafts away. -/
theorem not_clears_drafts :
    ¬∀ (items : List Item) (folder : Path) (module : Option UInt32) (tree : FileTree)
        (name : String), IsPublishedName name →
      ¬tree.HasNewDraft ((pack items folder module).runOn tree).2.files folder name :=
  fun clears => clears _ _ _ _ _ (.set .memorize 6) hasNewDraft_blockedFolder

end LectureQuiz
