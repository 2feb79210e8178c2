import LectureQuiz.Proofs.Job.Repeat
import LectureQuiz.Proofs.QuizSet.Success

/-!
# Packing once more

Packing the same into the folder that it has left gives the same sets and the same
manifest again. All that this needs of the manifest that was found first is that its
entries are in order and name the files of their sets.
-/

namespace LectureQuiz

/-- The entries are in order, and name the files of their sets. -/
structure Manifest.IsPacked (manifest : Manifest) : Prop where
  increasing : manifest.sets.Pairwise SetEntry.Before
  fileName_eq : ∀ entry ∈ manifest.sets,
    entry.fileName = entry.mode.fileName entry.module

theorem Manifest.isPacked_empty : Manifest.empty.IsPacked :=
  ⟨.nil, nofun⟩

theorem isPacked_mergeManifest
    {files : FileTree} {folder : Path} {groups : ModuleGroups}
    (isPacked : (files.manifest folder).IsPacked)
    (distinct : (groups.map Prod.fst).Nodup) :
    (mergeManifest files folder (groups.map Prod.fst) (groupEntries groups)).IsPacked := by
  refine ⟨pairwise_before_mergeManifest isPacked.increasing distinct, ?_⟩
  intro entry member
  rcases mem_mergeManifest.1 member with ⟨isOld, _⟩ | isNew
  · exact isPacked.fileName_eq entry isOld
  · rcases mem_groupEntries.1 isNew with ⟨module, items, mode, _, rfl⟩
    rfl

theorem FileTree.Delivers.of_like
    {prepared final other : FileTree} {folder : Path} {groups : DeliveredGroups}
    (delivers : prepared.Delivers final folder groups) (like : other.Like final) :
    prepared.Delivers other folder groups where
  sets module items mode delivered :=
    (like _).trans (delivers.sets module items mode delivered)
  drafts module mode delivered := (like _).trans (delivers.drafts module mode delivered)
  manifestDraft := (like _).trans delivers.manifestDraft
  elsewhere place notManifest notSet :=
    (like place).trans (delivers.elsewhere place notManifest notSet)

namespace PackRun

open FileTree

variable {tree prepared written final other preparedAgain writtenAgain finalAgain :
    FileTree} {folder : Path} {groups : ModuleGroups}
  {manifest manifestAgain : Manifest}

theorem isPacked
    (run : PackRun tree prepared written final folder groups manifest)
    (distinct : (groups.map Prod.fst).Nodup)
    (found : (prepared.manifest folder).IsPacked) : manifest.IsPacked := by
  rw [run.merged]
  apply isPacked_mergeManifest ?_ distinct
  rw [run.manifest_written]
  exact found

/-- An older entry stays when its module was not packed and something lies under its
name. -/
theorem mem_sets_iff_of_isPacked
    (run : PackRun tree prepared written final folder groups manifest)
    (found : (prepared.manifest folder).IsPacked) {entry : SetEntry} :
    entry ∈ manifest.sets ↔
      (entry ∈ (prepared.manifest folder).sets ∧
        entry.module ∉ groups.map Prod.fst ∧ folder.Fits entry.fileName ∧
        prepared.node? (folder.place ++ [entry.fileName]) ≠ none) ∨
      entry ∈ groupEntries groups := by
  rw [run.merged, mem_mergeManifest, run.manifest_written]
  refine or_congr_left (and_congr_right fun isOld => and_congr_right fun absent => ?_)
  rw [found.fileName_eq entry isOld]
  have isName := (SetMode.isOpenName_fileName entry.mode entry.module).isName
  rw [run.hasFolder_written.pathExists_join isName, ← run.node?_set_final,
    run.node?_set_of_not_mem absent]

/-- Files outside of the folder are left alone. -/
theorem alters
    (run : PackRun tree prepared written final folder groups manifest) :
    tree.Alters final folder.Encloses := by
  have grows := (createFolders_ok run.created).1
  constructor
  case keepsFolders =>
    intro place isFolder
    exact run.stored.folders place
      (run.sets.folders place (grows.node?_of_some isFolder))
  case sameFile =>
    intro place outside
    have untouched {name : String} (isOpen : IsOpenName name) :
        ¬Touches folder name place := by
      intro touches
      rcases touches with rfl | rfl
      · exact outside (folder.encloses_append isOpen.isName)
      · exact outside (folder.encloses_append (isName_draftName isOpen.noSlash))
    apply (grows.sameFile place).trans
    apply SameFile.of_node?_eq
    rw [run.stored.elsewhere place fun file member => untouched (run.stored.isOpen file member),
      run.sets.elsewhere place fun file member => untouched (run.sets.isOpen file member)]

theorem createFolders_again
    (run : PackRun tree prepared written final folder groups manifest)
    (like : other.Like final) : other.createFolders folder = (.ok (), other) := by
  have has := run.hasFolder_final.of_folders like.symm.keepsFolders
  exact createFolders_of_hasFolder has (usable_of_createFolders run.created)

section Again

variable (run : PackRun tree prepared written final folder groups manifest)
  (again : PackRun other preparedAgain writtenAgain finalAgain folder groups manifestAgain)
  (like : other.Like final)
include run again like

theorem prepared_again : preparedAgain = other := by
  have created := again.created
  rw [run.createFolders_again like, Prod.mk.injEq] at created
  exact created.2.symm

theorem found_again : preparedAgain.manifest folder = manifest := by
  rw [run.prepared_again again like, ← run.manifest_final]
  have has := run.hasFolder_final.of_folders like.symm.keepsFolders
  exact manifest_congr has run.hasFolder_final (like _)

/-- The older entries are those that stayed, and their files are still there. -/
theorem manifest_again
    (distinct : (groups.map Prod.fst).Nodup)
    (found : (prepared.manifest folder).IsPacked) : manifestAgain = manifest := by
  have isPacked := run.isPacked distinct found
  have isFound := run.found_again again like
  have foundAgain : (preparedAgain.manifest folder).IsPacked := isFound ▸ isPacked
  have isPackedAgain := again.isPacked distinct foundAgain
  have sets : manifestAgain.sets = manifest.sets := by
    apply SetEntry.eq_of_pairwise_before isPackedAgain.increasing isPacked.increasing
    intro entry
    rw [again.mem_sets_iff_of_isPacked foundAgain, isFound]
    constructor
    · intro member
      rcases member with ⟨stayed, _⟩ | isNew
      · exact stayed
      · exact (run.mem_sets_iff_of_isPacked found).2 (Or.inr isNew)
    · intro member
      rcases (run.mem_sets_iff_of_isPacked found).1 member with
        ⟨_, absent, fits, there⟩ | isNew
      · refine Or.inl ⟨member, absent, fits, ?_⟩
        rw [isPacked.fileName_eq entry member] at there ⊢
        rw [run.prepared_again again like, like, run.node?_set_of_not_mem absent]
        exact there
      · exact Or.inr isNew
  cases manifestAgain
  cases manifest
  rw [Manifest.mk.injEq]
  exact sets

theorem like_again
    (distinct : (groups.map Prod.fst).Nodup)
    (found : (prepared.manifest folder).IsPacked) : finalAgain.Like final := by
  have same := run.manifest_again again like distinct found
  have isPrepared := run.prepared_again again like
  intro place
  by_cases isManifest : place = folder.place ++ [Manifest.fileName]
  · have stored := run.stored.present _ (List.mem_singleton_self _)
    have storedAgain := again.stored.present _ (List.mem_singleton_self _)
    rw [isManifest, stored, storedAgain, same]
  · have delivers := run.delivers distinct
    have deliversAgain := again.delivers distinct
    rw [isPrepared] at deliversAgain
    have twice := (delivers.of_like like).trans deliversAgain
    have groupsOnce : (fun module => groups.lookup module <|> groups.lookup module) =
        fun module => groups.lookup module := by
      funext module
      cases groups.lookup module <;> rfl
    rw [groupsOnce] at twice
    exact twice.node?_eq delivers isManifest

end Again

end PackRun

theorem FileTree.Settled.isPacked_of_created
    {tree : FileTree} {folder : Path} (settled : tree.Settled folder)
    (prepared : FileTree) (created : tree.createFolders folder = (.ok (), prepared)) :
    (prepared.manifest folder).IsPacked := by
  rcases (FileTree.createFolders_ok created).2 with ⟨_, has⟩
  rcases settled.lists_of_created created (has.eq_place ▸ has) with ⟨held, lists⟩
  exact ⟨lists.increasing, fun _ member => lists.fileName_eq member⟩

theorem pack_of_nothing
    {items : List Item} {selected : Option UInt32}
    (nothing : selectedItems selected items = []) (folder : Path) :
    pack items folder selected = pure ⟨folder, [], .empty⟩ := by
  rw [pack, ← selectedItems, groupByModule_eq_nil_iff.2 nothing]
  rfl

/-- What could be packed can be packed again. -/
theorem PackRun.succeeds_again
    {tree prepared written final : FileTree} {folder : Path} {groups : ModuleGroups}
    {manifest : Manifest} {request : PackRequest}
    (run : PackRun tree prepared written final folder groups manifest)
    (admits : tree.AdmitsSets folder request.group?) {session : Session}
    (like : session.files.Like final) :
    (pack request.items folder request.selected).Succeeds session := by
  rw [FileTree.admitsSets_iff_of_created run.created] at admits
  rw [succeeds_pack,
    FileTree.admitsSets_iff_of_created (run.createFolders_again like)]
  have takesAgain {name : String} (takes : prepared.Takes folder name) :
      session.files.Takes folder name :=
    (run.takes_iff.2 takes).of_keepsFolders like.keepsFolders
  intro something
  rcases admits something with ⟨takesManifest, takesSets⟩
  refine ⟨takesAgain takesManifest, ?_⟩
  exact fun module mode delivered => takesAgain (takesSets module mode delivered)

theorem alters_pack
    {items : List Item} {folder : Path} {selected : Option UInt32}
    {session after : Session} {packing : Packing}
    (yields : (pack items folder selected).Yields session packing after) :
    session.files.Alters after.files folder.Encloses := by
  by_cases nothing : selectedItems selected items = []
  · rcases yields_pack_of_nil nothing yields with ⟨_, rfl⟩
    exact ⟨.refl _, fun _ _ => .refl _ _⟩
  · rcases yields_pack nothing yields with ⟨_, _, run⟩
    exact run.alters

theorem repeats_pack
    {items : List Item} {folder : Path} {selected : Option UInt32}
    {session after : Session} {packing : Packing}
    (found : ∀ prepared, session.files.createFolders folder = (.ok (), prepared) →
      (prepared.manifest folder).IsPacked)
    (yields : (pack items folder selected).Yields session packing after) :
    (pack items folder selected).Repeats packing after.files := by
  by_cases nothing : selectedItems selected items = []
  · rcases yields_pack_of_nil nothing yields with ⟨rfl, _⟩
    rw [pack_of_nothing nothing]
    exact .pure _ _
  · have distinct := (holds_groupByModule (selectedItems selected items)).distinct
    have admits := (@succeeds_pack session folder ⟨items, selected⟩).1 ⟨_, _, yields⟩
    rcases yields_pack nothing yields with ⟨prepared, written, run⟩
    have isFound := found prepared run.created
    intro earlier like
    rcases run.succeeds_again admits like with ⟨packingAgain, last, yieldsAgain⟩
    rcases yields_pack nothing yieldsAgain with ⟨_, _, again⟩
    have sameManifest := run.manifest_again again like distinct isFound
    have samePacking : packingAgain = packing := by
      rw [packing_of_yields nothing yields, packing_of_yields nothing yieldsAgain,
        sameManifest]
    exact ⟨last, samePacking ▸ yieldsAgain, run.like_again again like distinct isFound⟩

end LectureQuiz
