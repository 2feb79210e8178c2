import LectureQuiz.Proofs.FileTree.Update
import LectureQuiz.Proofs.FileTree.Way
import LectureQuiz.Proofs.Job.Relates
import LectureQuiz.Proofs.QuizSet.Delivery

/-!
# Packings that fail

A packing may fail at every folder, draft and file that it writes. Whatever it has done up
to then, no published set is left half-written and the manifest is the one that was there:
a file is replaced as a whole or stays as it was, and only drafts are left behind.
-/

namespace LectureQuiz

section Replacing

variable {tree other : FileTree} {folder : Path} {name content : String}
  {outcome : Except Error Unit}

/-- How far it gets to replace a file of a folder: nowhere, up to the draft, or to the
end. -/
inductive FileTree.Replacing (tree : FileTree) (folder : Path) (name content : String) :
    Except Error Unit → FileTree → Prop
  | refused (error : Error) : tree.Replacing folder name content (.error error) tree
  | drafted (error : Error) :
      tree.Replacing folder name content (.error error)
        (tree.put (folder.place ++ [draftName name]) (.file content.toUTF8))
  | replaced :
      tree.Replacing folder name content (.ok ())
        (((tree.put (folder.place ++ [draftName name]) (.file content.toUTF8)).erase
          (folder.place ++ [draftName name])).put (folder.place ++ [name])
            (.file content.toUTF8))

theorem replacing_replaceFile
    (isOpen : IsOpenName name) (folder : Path) (content : String) (session : Session) :
    session.files.Replacing folder name content
      ((replaceFile folder name content).run.run session :
        Except Error Unit × Session).1
      ((replaceFile folder name content).run.run session :
        Except Error Unit × Session).2.files := by
  have isDraft := isName_draftName isOpen.noSlash
  have atDraft := FileTree.place_join folder isDraft
  have atName := FileTree.place_join folder isOpen.isName
  rw [replaceFile, Job.run_bind, Job.writeText, Job.run_setFiles_atPath]
  cases written : session.files.write (folder.join (draftName name)) content.toUTF8 with
  | error fault => exact .refused _
  | ok drafted =>
      obtain ⟨place, isTarget, _, rfl⟩ := FileTree.write_eq_ok.1 written
      obtain rfl := (FileTree.eq_place_of_target isTarget).1
      rw [atDraft]
      dsimp only
      rw [Job.moveFile, Job.run_setFiles_atPath]
      dsimp only
      cases moved : (session.files.put (folder.place ++ [draftName name])
          (.file content.toUTF8)).moveFile (folder.join (draftName name))
            (folder.join name) with
      | error fault => exact .drafted _
      | ok other =>
          obtain ⟨bytes, source, target, isRead, located, isTarget, _, rfl⟩ :=
            FileTree.moveFile_eq_ok.1 moved
          have isFile := FileTree.node?_of_read isRead
          rw [atDraft, FileTree.node?_put_self _ _ (isDraft.isAnchor_append _),
            Option.some.injEq, Node.file.injEq] at isFile
          rw [← isFile, FileTree.locate_eq_place located,
            (FileTree.eq_place_of_target isTarget).1, atDraft, atName]
          exact .replaced

end Replacing

namespace FileTree

variable {tree other : FileTree} {folder : Path} {name content : String}
  {states : Location → Option Node → Prop}

/-- Every place is as it was, or in one of its states. -/
def ChangesTo (states : Location → Option Node → Prop) (tree other : FileTree) : Prop :=
  ∀ place, other.node? place = tree.node? place ∨ states place (other.node? place)

theorem isChange_changesTo (states : Location → Option Node → Prop) :
    IsChange (ChangesTo states) where
  refl _ _ := Or.inl rfl
  trans first second place := by
    rcases second place with same | state
    · rw [same]
      exact first place
    · exact Or.inr state

/-- A draft may hold anything on the way, and the file its new content at the end. -/
theorem Replacing.changesTo
    {outcome : Except Error Unit}
    (replacing : tree.Replacing folder name content outcome other) (isName : IsName name)
    (draft : ∀ node, states (folder.place ++ [draftName name]) node)
    (done : outcome = .ok () →
      states (folder.place ++ [name]) (some (.file content.toUTF8))) :
    tree.ChangesTo states other := by
  intro place
  by_cases isDraft : place = folder.place ++ [draftName name]
  · rw [isDraft]
    exact Or.inr (draft _)
  cases replacing with
  | refused error => exact Or.inl rfl
  | drafted error => exact Or.inl (node?_put_of_ne _ _ isDraft)
  | replaced =>
      by_cases isTarget : place = folder.place ++ [name]
      · rw [isTarget, node?_put_self _ _ (isName.isAnchor_append _)]
        exact Or.inr (done rfl)
      · rw [node?_put_of_ne _ _ isTarget, node?_erase_of_ne _ isDraft,
          node?_put_of_ne _ _ isDraft]
        exact Or.inl rfl

end FileTree

/-! ## Packing -/

/-- What packing the groups may make of a place before it writes the manifest. -/
inductive IsPackState (folder : Path) (groups : DeliveredGroups) :
    Location → Option Node → Prop
  | set {module : UInt32} {items : List Item} (mode : SetMode) :
      groups module = some items →
      IsPackState folder groups (folder.place ++ [mode.fileName module])
        (some (.file (Records.render items).toUTF8))
  | draft {module : UInt32} (mode : SetMode) (node : Option Node) :
      groups module ≠ none →
      IsPackState folder groups (folder.place ++ [draftName (mode.fileName module)]) node
  | manifestDraft (node : Option Node) :
      IsPackState folder groups (folder.place ++ [draftName Manifest.fileName]) node

variable {folder : Path} {groups : DeliveredGroups} {request : PackRequest}
  {tree other : FileTree} {after : Session}

namespace IsPackState

/-- A file of the folder that is no draft is in such a state when it holds a whole set. -/
theorem of_name
    {name : String} {node : Option Node} (isOpen : IsOpenName name)
    (state : IsPackState folder groups (folder.place ++ [name]) node) :
    ∃ module items mode, groups module = some items ∧
      name = SetMode.fileName mode module ∧
      node = some (.file (Records.render items).toUTF8) := by
  generalize isPlace : folder.place ++ [name] = place at state
  cases state with
  | set mode isGroup => exact ⟨_, _, mode, isGroup, by simpa using isPlace, rfl⟩
  | draft mode node _ => exact absurd (by simpa using isPlace) (isOpen.ne_draftName _)
  | manifestDraft node => exact absurd (by simpa using isPlace) (isOpen.ne_draftName _)

/-- Places that packing does not write are in no such state. -/
theorem not_of_not_touches
    {place : Location} {node : Option Node}
    (notManifest : ¬FileTree.Touches folder Manifest.fileName place)
    (notSet : ∀ (module : UInt32) (mode : SetMode), groups module ≠ none →
      ¬FileTree.Touches folder (mode.fileName module) place) :
    ¬IsPackState folder groups place node := by
  intro state
  cases state with
  | set mode isGroup =>
      exact notSet _ mode (by rw [isGroup]; exact nofun) (Or.inl rfl)
  | draft mode node delivered => exact notSet _ mode delivered (Or.inr rfl)
  | manifestDraft node => exact notManifest (Or.inr rfl)

end IsPackState

theorem relates_replaceFile_set
    {module : UInt32} {items : List Item} (isGroup : groups module = some items)
    (mode : SetMode) :
    (replaceFile folder (mode.fileName module) (Records.render items)).Relates
      (FileTree.ChangesTo (IsPackState folder groups)) := by
  intro session
  have delivered : groups module ≠ none := by
    rw [isGroup]
    exact nofun
  have isOpen := SetMode.isOpenName_fileName mode module
  apply (replacing_replaceFile isOpen folder _ session).changesTo isOpen.isName
  · exact fun node => .draft mode node delivered
  · exact fun _ => .set mode isGroup

theorem relates_writeSets
    {module : UInt32} {items : List Item} (isGroup : groups module = some items) :
    (writeSets folder module items).Relates
      (FileTree.ChangesTo (IsPackState folder groups)) := by
  have isChange := FileTree.isChange_changesTo (IsPackState folder groups)
  exact Job.Relates.bind isChange
    (Job.relates_forM isChange fun mode _ => relates_replaceFile_set isGroup mode)
    fun _ => Job.relates_pure isChange _

theorem relatesOnError_replaceFile_manifest (content : String) :
    (replaceFile folder Manifest.fileName content).RelatesOnError
      (FileTree.ChangesTo (IsPackState folder groups)) := by
  intro session error failed
  have isOpen := Manifest.isOpenName_fileName
  apply (replacing_replaceFile isOpen folder content session).changesTo isOpen.isName
    .manifestDraft
  intro succeeded
  rw [failed] at succeeded
  exact absurd succeeded nofun

/-- Once the folder is there, a packing that fails changes sets as a whole, and drafts. -/
theorem changesTo_of_failed_pack
    {error : Error}
    (run : (pack request.items folder request.selected).runOn tree = (.error error, after)) :
    (tree.createFolders folder).2.ChangesTo (IsPackState folder request.group?)
      after.files := by
  have isChange := FileTree.isChange_changesTo (IsPackState folder request.group?)
  have failed := congrArg Prod.fst run
  obtain rfl := congrArg Prod.snd run
  clear run
  rw [Job.runOn, pack, ← selectedItems] at failed ⊢
  split at failed
  · change Except.ok _ = Except.error error at failed
    cases failed
  · rename_i something
    rw [if_neg something]
    apply Job.RelatesOnError.createFolders_bind isChange.refl _ failed
    refine Job.RelatesOnError.bind isChange (Job.relates_mapM isChange ?_) fun _ =>
      Job.RelatesOnError.bind isChange (Job.relates_files isChange) fun _ =>
        Job.RelatesOnError.bind_pure (relatesOnError_replaceFile_manifest _)
    intro group member
    apply relates_writeSets
    rw [← request.lookup_groups]
    exact (mem_iff_lookup_eq (holds_groupByModule _).distinct).1 member

/-- What a packing of the groups that failed has made of the folder. Where the path of the
folder passes a place that was empty, the place may be a folder now. -/
structure FileTree.FailedPack (tree other : FileTree) (folder : Path)
    (groups : DeliveredGroups) : Prop where
  manifest :
    other.node? (folder.place ++ [Manifest.fileName]) =
        tree.node? (folder.place ++ [Manifest.fileName]) ∨
      tree.CreatedOnWay other folder (folder.place ++ [Manifest.fileName])
  sets : ∀ (module : UInt32) (items : List Item) (mode : SetMode),
    groups module = some items →
      other.node? (folder.place ++ [mode.fileName module]) =
          tree.node? (folder.place ++ [mode.fileName module]) ∨
        other.node? (folder.place ++ [mode.fileName module]) =
          some (.file (Records.render items).toUTF8) ∨
        tree.CreatedOnWay other folder (folder.place ++ [mode.fileName module])
  elsewhere : ∀ place, ¬FileTree.Touches folder Manifest.fileName place →
    (∀ (module : UInt32) (mode : SetMode), groups module ≠ none →
      ¬FileTree.Touches folder (mode.fileName module) place) →
    other.node? place = tree.node? place ∨ tree.CreatedOnWay other folder place

/-- What a packing of the groups that succeeded has made of the folder: but for folders
that were created, only the files that it writes are different, and their drafts are
gone. -/
structure FileTree.CompletedPack (tree other : FileTree) (folder : Path)
    (groups : DeliveredGroups) : Prop where
  drafts : ∀ (module : UInt32) (mode : SetMode), groups module ≠ none →
    other.node? (folder.place ++ [draftName (mode.fileName module)]) = none
  manifestDraft :
    other.node? (folder.place ++ [draftName Manifest.fileName]) =
        tree.node? (folder.place ++ [draftName Manifest.fileName]) ∨
      other.node? (folder.place ++ [draftName Manifest.fileName]) = none
  elsewhere : ∀ place, ¬FileTree.Touches folder Manifest.fileName place →
    (∀ (module : UInt32) (mode : SetMode), groups module ≠ none →
      ¬FileTree.Touches folder (mode.fileName module) place) →
    other.node? place = tree.node? place ∨ tree.CreatedOnWay other folder place

theorem failedPack_of_run
    {error : Error}
    (run : (pack request.items folder request.selected).runOn tree = (.error error, after)) :
    tree.FailedPack after.files folder request.group? := by
  have changes (place : Location) : after.files.node? place = tree.node? place ∨
      tree.CreatedOnWay after.files folder place ∨
      IsPackState folder request.group? place (after.files.node? place) := by
    rcases changesTo_of_failed_pack run place with same | state
    · rw [FileTree.CreatedOnWay, same]
      exact (tree.createFolders_elsewhere folder place).imp_right Or.inl
    · exact Or.inr (Or.inr state)
  constructor
  case manifest =>
    refine (changes _).imp_right fun changed => changed.resolve_right fun state => ?_
    obtain ⟨module, _, mode, _, isSet, _⟩ := state.of_name Manifest.isOpenName_fileName
    exact SetMode.fileName_ne_manifest mode module isSet.symm
  case sets =>
    intro module items mode isGroup
    refine (changes _).imp_right fun changed => changed.symm.imp_left fun state => ?_
    obtain ⟨_, _, _, isOther, sameName, isSet⟩ :=
      state.of_name (SetMode.isOpenName_fileName mode module)
    obtain ⟨_, rfl⟩ := SetMode.fileName_inj.1 sameName
    rw [isGroup] at isOther
    rw [isSet, Option.some.inj isOther]
  case elsewhere =>
    intro place notManifest notSet
    exact (changes _).imp_right fun changed =>
      changed.resolve_right (IsPackState.not_of_not_touches notManifest notSet)

theorem FileTree.FailedPack.sameFile_manifest
    (failed : tree.FailedPack other folder groups) :
    tree.SameFile other (folder.place ++ [Manifest.fileName]) := by
  rcases failed.manifest with same | ⟨_, absent, isFolder⟩
  · exact .of_node?_eq same
  · intro content
    rw [absent, isFolder]
    exact iff_of_false nofun nofun

theorem completedPack_of_run
    {packing : Packing}
    (run : (pack request.items folder request.selected).runOn tree = (.ok packing, after)) :
    tree.CompletedPack after.files folder request.group? := by
  have yields := Job.yields_iff_runOn.2 run
  by_cases nothing : selectedItems request.selected request.items = []
  · obtain ⟨_, rfl⟩ := yields_pack_of_nil nothing yields
    have noGroup := PackRequest.group?_of_nothing nothing
    exact ⟨fun module _ delivered => absurd (noGroup module) delivered, Or.inl rfl,
      fun _ _ _ => Or.inl rfl⟩
  obtain ⟨prepared, written, passes⟩ := yields_pack nothing yields
  have delivers := passes.delivers (holds_groupByModule _).distinct
  simp only [request.lookup_groups] at delivers
  refine ⟨delivers.drafts, Or.inr delivers.manifestDraft, ?_⟩
  intro place notManifest notSet
  rw [FileTree.CreatedOnWay, delivers.elsewhere place notManifest notSet]
  have created := tree.createFolders_elsewhere folder place
  rwa [passes.created] at created

/-- A packing that fails leaves the manifest alone and every set old or new as a whole, and
one that succeeds changes nothing but what it writes. Besides there are folders that the
path of the folder passes, and drafts. -/
theorem pack_spares_published (request : PackRequest) (folder : Path) (tree : FileTree) :
    (∀ error after,
        (pack request.items folder request.selected).runOn tree = (.error error, after) →
          tree.FailedPack after.files folder request.group?) ∧
      ∀ packing after,
        (pack request.items folder request.selected).runOn tree = (.ok packing, after) →
          tree.CompletedPack after.files folder request.group? :=
  ⟨fun _ _ run => failedPack_of_run run, fun _ _ run => completedPack_of_run run⟩

/-- A folder with a manifest where the place of a set is taken. -/
def blockedFolder : FileTree where
  nodes := [(["o"], .folder), (["o", "manifest.json"], .file "old".toUTF8),
    (["o", "memorize_m6.jsonl"], .folder)]
  distinct := by simp

/-- The first set is written, the second one cannot be. -/
theorem pack_spares_published_of_blockedFolder :
    (∃ error after,
        (pack [sampleItem 6] ⟨"o"⟩ none).runOn blockedFolder = (.error error, after) ∧
          after.files.pathExists ⟨"o/practice_m6.jsonl"⟩ = true ∧
          blockedFolder.FailedPack after.files ⟨"o"⟩
            (PackRequest.mk [sampleItem 6] none).group?) ∧
      ∃ packing after,
        (pack [sampleItem 6] ⟨"o"⟩ none).runOn .empty = (.ok packing, after) ∧
          FileTree.empty.CompletedPack after.files ⟨"o"⟩
            (PackRequest.mk [sampleItem 6] none).group? := by
  have ⟨failed, isWritten, succeeded⟩ :
      ((pack [sampleItem 6] ⟨"o"⟩ none).runOn blockedFolder).1.isOk = false ∧
        ((pack [sampleItem 6] ⟨"o"⟩ none).runOn blockedFolder).2.files.pathExists
          ⟨"o/practice_m6.jsonl"⟩ = true ∧
        ((pack [sampleItem 6] ⟨"o"⟩ none).runOn .empty).1.isOk = true := by
    decide +kernel
  obtain ⟨error, failedRun⟩ := Job.exists_of_not_isOk failed
  obtain ⟨packing, run⟩ := Job.exists_of_isOk succeeded
  have onBlocked := pack_spares_published ⟨[sampleItem 6], none⟩ ⟨"o"⟩ blockedFolder
  have onEmpty := pack_spares_published ⟨[sampleItem 6], none⟩ ⟨"o"⟩ .empty
  exact ⟨⟨error, _, failedRun, isWritten, onBlocked.1 _ _ failedRun⟩,
    packing, _, run, onEmpty.2 _ _ run⟩

/-- A path that leads to `o`. On the way it passes another folder and the places of the
manifest and of a set. -/
def windingPath : Path := ⟨"x/../o/manifest.json/../practice_m6.jsonl/.."⟩

/-- What the path passes is created as a folder: in the place of the manifest, in the place
of a set, and where no folder above the output is. -/
theorem not_pack_spares_published_of_windingPath :
    windingPath.place = ["o"] ∧
      ∃ error after,
        (pack [sampleItem 6] windingPath none).runOn .empty = (.error error, after) ∧
          (after.files.node? ["o", "manifest.json"] = some .folder ∧
            FileTree.empty.node? ["o", "manifest.json"] = none) ∧
          (after.files.node? ["o", "practice_m6.jsonl"] = some .folder ∧
            FileTree.empty.node? ["o", "practice_m6.jsonl"] = none) ∧
          ¬["x"] <+: windingPath.place ∧ after.files.node? ["x"] = some .folder ∧
            FileTree.empty.node? ["x"] = none := by
  have ⟨failed, isManifest, isSet, isOther⟩ :
      ((pack [sampleItem 6] windingPath none).runOn .empty).1.isOk = false ∧
        ((pack [sampleItem 6] windingPath none).runOn .empty).2.files.isFolder
          ⟨"o/manifest.json"⟩ = true ∧
        ((pack [sampleItem 6] windingPath none).runOn .empty).2.files.isFolder
          ⟨"o/practice_m6.jsonl"⟩ = true ∧
        ((pack [sampleItem 6] windingPath none).runOn .empty).2.files.isFolder
          ⟨"x"⟩ = true := by
    decide +kernel
  obtain ⟨error, run⟩ := Job.exists_of_not_isOk failed
  have place : windingPath.place = ["o"] ∧
      (Path.mk "o/manifest.json").place = ["o", "manifest.json"] ∧
      (Path.mk "o/practice_m6.jsonl").place = ["o", "practice_m6.jsonl"] ∧
      (Path.mk "x").place = ["x"] := by
    decide +kernel
  have manifestNode := FileTree.node?_of_isFolder isManifest
  have setNode := FileTree.node?_of_isFolder isSet
  have otherNode := FileTree.node?_of_isFolder isOther
  rw [place.2.1] at manifestNode
  rw [place.2.2.1] at setNode
  rw [place.2.2.2] at otherNode
  rw [place.1]
  exact ⟨rfl, error, _, run, ⟨manifestNode, rfl⟩, ⟨setNode, rfl⟩, by decide, otherNode, rfl⟩

end LectureQuiz
