import LectureQuiz.Proofs.FileTree.Kept
import LectureQuiz.Proofs.QuizSet.Delivery

/-!
# When packings succeed

Packing succeeds when the folder can be created and takes the files of all groups
that are delivered and the manifest. For packings in turn it makes no difference
which group comes first, because no packing makes or removes a folder in the place of
a file.
-/

namespace LectureQuiz

namespace FileTree

variable {tree other : FileTree} {folder : Path} {name : String}

/-- A file can be replaced under the name. -/
structure Takes (tree : FileTree) (folder : Path) (name : String) : Prop where
  fits : folder.Fits name
  draftFits : folder.Fits (draftName name)
  notFolder : ∀ place, Touches folder name place → tree.node? place ≠ some .folder

theorem Takes.of_keepsFolders
    (takes : tree.Takes folder name) (keeps : other.KeepsFolders tree) :
    other.Takes folder name where
  fits := takes.fits
  draftFits := takes.draftFits
  notFolder place touches isFolder :=
    takes.notFolder place touches (keeps place isFolder)

/-- Replacing files makes no folders. -/
theorem Replaces.keepsFolders_before
    {written : List (String × String)}
    (replaces : tree.Replaces other folder written) : other.KeepsFolders tree := by
  intro place isFolder
  by_cases touched : ∃ file ∈ written, Touches folder file.1 place
  · obtain ⟨file, member, isName | isDraft⟩ := touched
    · rw [isName, replaces.present file member] at isFolder
      exact absurd isFolder nofun
    · rw [isDraft, replaces.noDraft file member] at isFolder
      exact absurd isFolder nofun
  · rw [← isFolder, replaces.elsewhere place]
    intro file member touches
    exact touched ⟨file, member, touches⟩

theorem Replaces.takes_iff
    {written : List (String × String)}
    (replaces : tree.Replaces other folder written) :
    other.Takes folder name ↔ tree.Takes folder name := by
  constructor
  · intro takes
    exact takes.of_keepsFolders replaces.folders
  · intro takes
    exact takes.of_keepsFolders replaces.keepsFolders_before

end FileTree

/-! ## Packings that succeed -/

variable {session : Session} {folder : Path}

theorem succeeds_replaceFile
    (has : session.files.HasFolder folder folder.place)
    {name : String} (isOpen : IsOpenName name) {content : String} :
    (replaceFile folder name content).Succeeds session ↔
      session.files.Takes folder name := by
  have isName := isOpen.isName
  have isDraft := isName_draftName isOpen.noSlash
  have apart : folder.place ++ [name] ≠ folder.place ++ [draftName name] := by
    simpa using isOpen.ne_draftName name
  constructor
  · intro succeeds
    obtain ⟨value, after, run⟩ := succeeds
    obtain ⟨_, _, replaces⟩ := yields_replaceFile has isOpen run
    simp only [replaceFile, Job.yields_bind, Job.yields_writeText] at run
    obtain ⟨_, _, ⟨drafted, write, _⟩, _⟩ := run
    obtain ⟨draftFits, _⟩ := (has.write_join isDraft).1 write
    have isWritten : (name, content) ∈ [(name, content)] := List.mem_cons_self
    have fits := replaces.fits _ isWritten
    have notFolder := replaces.notFolder _ isWritten
    exact ⟨fits, draftFits, notFolder⟩
  · intro takes
    let drafted := session.files.put (folder.place ++ [draftName name])
      (.file content.toUTF8)
    have notDraft := takes.notFolder _ (Or.inr rfl)
    have write : session.files.write (folder.join (draftName name)) content.toUTF8 =
        .ok drafted :=
      (has.write_join isDraft).2 ⟨takes.draftFits, notDraft, rfl⟩
    have hasDraft : drafted.HasFolder folder folder.place :=
      has.of_folders (FileTree.keepsFolders_put notDraft _)
    have notName : drafted.node? (folder.place ++ [name]) ≠ some .folder := by
      rw [FileTree.node?_put_of_ne _ _ apart]
      exact takes.notFolder _ (Or.inl rfl)
    have there := FileTree.node?_put_self session.files (.file content.toUTF8)
      (isDraft.isAnchor_append folder.place)
    have move := (hasDraft.moveFile_join isDraft isName).2
      ⟨takes.draftFits, takes.fits, notName, content.toUTF8, there, rfl⟩
    have moves : (Job.moveFile (folder.join (draftName name))
        (folder.join name)).Succeeds { session with files := drafted } :=
      ⟨(), _, Job.yields_moveFile.2 ⟨_, move, rfl⟩⟩
    rw [replaceFile, Job.succeeds_bind]
    exact ⟨(), _, Job.yields_writeText.2 ⟨drafted, write, rfl⟩, moves⟩

theorem succeeds_writeSets
    (has : session.files.HasFolder folder folder.place)
    {module : UInt32} {items : List Item} :
    (writeSets folder module items).Succeeds session ↔
      ∀ mode : SetMode, session.files.Takes folder (mode.fileName module) := by
  have isOpen (mode : SetMode) := SetMode.isOpenName_fileName mode module
  rw [writeSets, Job.succeeds_bind_pure, SetMode.all, Job.succeeds_forM_cons]
  constructor
  · intro succeeds
    obtain ⟨between, runPractice, runRest⟩ := succeeds
    obtain ⟨_, rfl, replaces⟩ := yields_replaceFile has (isOpen .practice) runPractice
    obtain ⟨last, runMemorize, _⟩ := Job.succeeds_forM_cons.1 runRest
    have practice := (succeeds_replaceFile has (isOpen .practice)).1 ⟨_, _, runPractice⟩
    have memorize := (succeeds_replaceFile (replaces.hasFolder has)
      (isOpen .memorize)).1 ⟨_, _, runMemorize⟩
    intro mode
    cases mode with
    | practice => exact practice
    | memorize => exact replaces.takes_iff.1 memorize
  · intro takes
    obtain ⟨_, between, runPractice⟩ :=
      (succeeds_replaceFile has (isOpen .practice)).2 (takes .practice)
    obtain ⟨other, rfl, replaces⟩ :=
      yields_replaceFile has (isOpen .practice) runPractice
    have memorize : (replaceFile folder (SetMode.memorize.fileName module)
        (Records.render items)).Succeeds { session with files := other } :=
      (succeeds_replaceFile (replaces.hasFolder has) (isOpen .memorize)).2
        (replaces.takes_iff.2 (takes .memorize))
    obtain ⟨_, last, runMemorize⟩ := memorize
    refine ⟨_, runPractice, Job.succeeds_forM_cons.2 ⟨last, runMemorize, ?_⟩⟩
    exact Job.succeeds_pure ()

theorem succeeds_mapM_writeSets
    {groups : ModuleGroups} (has : session.files.HasFolder folder folder.place) :
    (groups.mapM fun (module, items) =>
        writeSets folder module items).Succeeds session ↔
      ∀ group ∈ groups, ∀ mode : SetMode,
        session.files.Takes folder (mode.fileName group.1) := by
  induction groups generalizing session with
  | nil =>
      refine iff_of_true ?_ nofun
      exact Job.succeeds_pure []
  | cons group rest inductionHypothesis =>
      rw [Job.succeeds_mapM_cons, List.forall_mem_cons]
      constructor
      · intro succeeds
        obtain ⟨_, between, runFirst, runRest⟩ := succeeds
        have takes := (succeeds_writeSets has).1 ⟨_, _, runFirst⟩
        obtain ⟨_, other, rfl, replaces⟩ := yields_writeSets has runFirst
        have takesRest := (inductionHypothesis (replaces.hasFolder has)).1 runRest
        refine ⟨takes, ?_⟩
        intro later isLater mode
        exact replaces.takes_iff.1 (takesRest later isLater mode)
      · intro takesAll
        obtain ⟨takes, takesRest⟩ := takesAll
        obtain ⟨_, between, runFirst⟩ := (succeeds_writeSets has).2 takes
        obtain ⟨_, other, rfl, replaces⟩ := yields_writeSets has runFirst
        refine ⟨_, _, runFirst, (inductionHypothesis (replaces.hasFolder has)).2 ?_⟩
        intro later isLater mode
        exact replaces.takes_iff.2 (takesRest later isLater mode)

/-- If there are groups, then the folder can be created and takes their sets and
the manifest. -/
def FileTree.AdmitsSets (tree : FileTree) (folder : Path) (groups : DeliveredGroups) :
    Prop :=
  (∃ module, groups module ≠ none) →
    ∃ prepared, tree.createFolders folder = (.ok (), prepared) ∧
      prepared.Takes folder Manifest.fileName ∧
      ∀ (module : UInt32) (mode : SetMode), groups module ≠ none →
        prepared.Takes folder (mode.fileName module)

theorem succeeds_pack {request : PackRequest} :
    (pack request.items folder request.selected).Succeeds session ↔
      session.files.AdmitsSets folder request.group? := by
  obtain ⟨groups, isGrouped⟩ : ∃ groups,
      groupByModule (selectedItems request.selected request.items) = groups := ⟨_, rfl⟩
  have distinct : (groups.map Prod.fst).Nodup :=
    isGrouped ▸ (holds_groupByModule _).distinct
  by_cases nothing : selectedItems request.selected request.items = []
  · refine iff_of_true ?_ ?_
    · rw [pack, ← selectedItems, groupByModule_eq_nil_iff.2 nothing]
      exact Job.succeeds_pure _
    · intro something
      obtain ⟨module, delivered⟩ := something
      exact absurd (PackRequest.group?_of_nothing nothing module) delivered
  have something : groups.isEmpty = false := by
    simpa [← isGrouped, groupByModule_eq_nil_iff] using nothing
  have delivered (module : UInt32) :
      request.group? module ≠ none ↔ ∃ group ∈ groups, group.1 = module := by
    rw [← request.lookup_groups, isGrouped, Ne, lookup_eq_none_iff_not_mem, not_not,
      List.mem_map]
  rw [pack, ← selectedItems, isGrouped, something]
  simp only [Bool.false_eq_true, if_false, Job.succeeds_bind,
    Job.yields_createFolders, Job.yields_files, Job.succeeds_pure, and_true]
  constructor
  · intro succeeds _
    obtain ⟨_, _, ⟨prepared, created, rfl⟩, entries, _, runSets, _, _, ⟨rfl, rfl⟩,
      runManifest⟩ := succeeds
    obtain ⟨_, location, found⟩ := FileTree.createFolders_ok created
    have has : prepared.HasFolder folder folder.place := found.eq_place ▸ found
    have takes := (succeeds_mapM_writeSets has).1 ⟨_, _, runSets⟩
    obtain ⟨_, written, rfl, replaces⟩ := yields_mapM_writeSets distinct has runSets
    have takesManifest := (succeeds_replaceFile (replaces.hasFolder has)
      Manifest.isOpenName_fileName).1 runManifest
    refine ⟨prepared, created, replaces.takes_iff.1 takesManifest, ?_⟩
    intro module mode isDelivered
    obtain ⟨group, isGroup, rfl⟩ := (delivered module).1 isDelivered
    exact takes group isGroup mode
  · intro admits
    obtain ⟨prepared, created, takesManifest, takes⟩ :=
      admits (PackRequest.exists_group?_of_something nothing)
    obtain ⟨_, location, found⟩ := FileTree.createFolders_ok created
    have has : prepared.HasFolder folder folder.place := found.eq_place ▸ found
    have runSets : (groups.mapM fun (module, items) =>
        writeSets folder module items).Succeeds { session with files := prepared } := by
      refine (succeeds_mapM_writeSets has).2 ?_
      intro group isGroup mode
      exact takes group.1 mode ((delivered group.1).2 ⟨group, isGroup, rfl⟩)
    obtain ⟨entries, _, runSets⟩ := runSets
    obtain ⟨_, written, rfl, replaces⟩ := yields_mapM_writeSets distinct has runSets
    refine ⟨(), _, ⟨prepared, created, rfl⟩, entries, _, runSets, _, _, ⟨rfl, rfl⟩, ?_⟩
    exact (succeeds_replaceFile (replaces.hasFolder has)
      Manifest.isOpenName_fileName).2 (replaces.takes_iff.2 takesManifest)

theorem FileTree.admitsSets_iff_of_created
    {tree prepared : FileTree} {groups : DeliveredGroups}
    (created : tree.createFolders folder = (.ok (), prepared)) :
    tree.AdmitsSets folder groups ↔ ((∃ module, groups module ≠ none) →
      prepared.Takes folder Manifest.fileName ∧
        ∀ (module : UInt32) (mode : SetMode), groups module ≠ none →
          prepared.Takes folder (mode.fileName module)) := by
  refine imp_congr_right fun _ => ?_
  constructor
  · intro admits
    obtain ⟨_, createdAgain, takes⟩ := admits
    rw [created, Prod.mk.injEq] at createdAgain
    exact createdAgain.2 ▸ takes
  · intro takes
    exact ⟨prepared, created, takes⟩

theorem FileTree.AdmitsSets.of_fewer
    {tree : FileTree} {groups fewer : DeliveredGroups}
    (admits : tree.AdmitsSets folder groups)
    (included : ∀ module, fewer module ≠ none → groups module ≠ none) :
    tree.AdmitsSets folder fewer := by
  intro something
  obtain ⟨module, delivered⟩ := something
  obtain ⟨prepared, created, takesManifest, takes⟩ :=
    admits ⟨module, included module delivered⟩
  refine ⟨prepared, created, takesManifest, ?_⟩
  intro module mode delivered
  exact takes module mode (included module delivered)

namespace PackRun

variable {tree prepared written final : FileTree} {groups : ModuleGroups}
  {manifest : Manifest}

theorem takes_iff
    (run : PackRun tree prepared written final folder groups manifest)
    {name : String} : final.Takes folder name ↔ prepared.Takes folder name :=
  run.stored.takes_iff.trans run.sets.takes_iff

/-- What can be packed after a packing could be packed along with it. -/
theorem admitsSets_orElse
    (run : PackRun tree prepared written final folder groups manifest)
    {earlier later : DeliveredGroups} (something : ∃ module, earlier module ≠ none) :
    (tree.AdmitsSets folder fun module => later module <|> earlier module) ↔
      tree.AdmitsSets folder earlier ∧ final.AdmitsSets folder later := by
  have again : final.createFolders folder = (.ok (), final) :=
    FileTree.createFolders_of_hasFolder run.hasFolder_final
      (FileTree.usable_of_createFolders run.created)
  have isEither (module : UInt32) : (later module <|> earlier module) ≠ none ↔
      later module ≠ none ∨ earlier module ≠ none := by
    cases later module <;> simp
  obtain ⟨module, delivered⟩ := something
  simp only [FileTree.admitsSets_iff_of_created run.created,
    FileTree.admitsSets_iff_of_created again, run.takes_iff, isEither]
  constructor
  · intro admits
    obtain ⟨takesManifest, takes⟩ := admits ⟨module, Or.inr delivered⟩
    refine ⟨fun _ => ⟨takesManifest, ?_⟩, fun _ => ⟨takesManifest, ?_⟩⟩
    · exact fun module mode isEarlier => takes module mode (Or.inr isEarlier)
    · exact fun module mode isLater => takes module mode (Or.inl isLater)
  · intro admitsBoth _
    obtain ⟨admitsEarlier, admitsLater⟩ := admitsBoth
    obtain ⟨takesManifest, takes⟩ := admitsEarlier ⟨module, delivered⟩
    refine ⟨takesManifest, ?_⟩
    intro module mode isDelivered
    rcases isDelivered with isLater | isEarlier
    · exact (admitsLater ⟨module, isLater⟩).2 module mode isLater
    · exact takes module mode isEarlier

end PackRun

theorem succeeds_packInTurn {requests : List PackRequest} :
    (packInTurn folder requests).Succeeds session ↔
      session.files.AdmitsSets folder (PackRequest.lastGroup? requests) := by
  induction requests generalizing session with
  | nil =>
      refine iff_of_true ?_ ?_
      · exact Job.succeeds_pure []
      · intro something
        obtain ⟨_, delivered⟩ := something
        exact absurd rfl delivered
  | cons request rest inductionHypothesis =>
      rw [packInTurn, Job.succeeds_mapM_cons]
      by_cases nothing : selectedItems request.selected request.items = []
      · rw [PackRequest.lastGroup?_of_nothing nothing, ← inductionHypothesis]
        constructor
        · intro succeeds
          obtain ⟨_, _, runFirst, runRest⟩ := succeeds
          obtain ⟨_, rfl⟩ := yields_pack_of_nil nothing runFirst
          exact runRest
        · intro runRest
          have admitsFirst : session.files.AdmitsSets folder request.group? := by
            intro something
            obtain ⟨module, delivered⟩ := something
            exact absurd (PackRequest.group?_of_nothing nothing module) delivered
          obtain ⟨_, _, runFirst⟩ := succeeds_pack.2 admitsFirst
          obtain ⟨_, rfl⟩ := yields_pack_of_nil nothing runFirst
          exact ⟨_, _, runFirst, runRest⟩
      · have something := PackRequest.exists_group?_of_something nothing
        constructor
        · intro succeeds
          obtain ⟨_, between, runFirst, runRest⟩ := succeeds
          obtain ⟨prepared, written, passes⟩ := yields_pack nothing runFirst
          exact (passes.admitsSets_orElse something).2
            ⟨succeeds_pack.1 ⟨_, _, runFirst⟩, inductionHypothesis.1 runRest⟩
        · intro admits
          have admitsFirst : session.files.AdmitsSets folder request.group? := by
            apply admits.of_fewer
            exact PackRequest.lastGroup?_ne_none
          obtain ⟨_, between, runFirst⟩ := succeeds_pack.2 admitsFirst
          obtain ⟨prepared, written, passes⟩ := yields_pack nothing runFirst
          obtain ⟨_, admitsRest⟩ := (passes.admitsSets_orElse something).1 admits
          exact ⟨_, between, runFirst, inductionHypothesis.2 admitsRest⟩

end LectureQuiz
