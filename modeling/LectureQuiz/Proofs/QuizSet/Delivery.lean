import Mathlib.Data.List.Sort
import LectureQuiz.Proofs.QuizSet.Load

/-!
# What packings deliver

Packings that run in turn leave, of each module, the items that were packed last.
All else in the folder is as it was found, but for the manifest, and the manifest
follows from the files of the sets.
-/

namespace LectureQuiz

open LectureQuiz.Text

theorem SetEntry.Before.asymm
    {first second : SetEntry} (before : first.Before second) :
    ¬second.Before first := by
  rcases before with below | ⟨sameModule, lowRank⟩
  · rintro (above | ⟨sameModule, _⟩)
    · exact UInt32.lt_asymm below above
    · exact UInt32.lt_irrefl _ (sameModule ▸ below)
  · rintro (above | ⟨_, highRank⟩)
    · exact UInt32.lt_irrefl _ (sameModule ▸ above)
    · exact Nat.lt_asymm lowRank highRank

/-- Entries in order are told by which of them there are. -/
theorem SetEntry.eq_of_pairwise_before
    {entries others : List SetEntry} (increasing : entries.Pairwise Before)
    (othersIncreasing : others.Pairwise Before)
    (same : ∀ entry, entry ∈ entries ↔ entry ∈ others) : entries = others := by
  have irreflexive : Std.Irrefl Before := ⟨fun _ before => before.asymm before⟩
  have antisymmetric : Std.Antisymm Before :=
    ⟨fun _ _ before after => absurd after before.asymm⟩
  exact increasing.eq_of_mem_iff othersIncreasing fun {entry} => same entry

/-- The files hold the same sets in the folder. -/
def FileTree.SameSets (files other : FileTree) (folder : Path) : Prop :=
  ∀ (mode : SetMode) (module : UInt32) (content : ByteArray),
    files.read (folder.join (mode.fileName module)) = .ok content ↔
      other.read (folder.join (mode.fileName module)) = .ok content

namespace Manifest.Describes

variable {files other : FileTree} {folder : Path} {manifest second : Manifest}

theorem mem_of_sameSets
    (describes : manifest.Describes files folder)
    (describesOther : second.Describes other folder)
    (same : files.SameSets other folder) {entry : SetEntry}
    (member : entry ∈ manifest.sets) : entry ∈ second.sets := by
  have name := describes.fileName_eq entry member
  obtain ⟨content, text, isRead, digest, isText, items, _⟩ :=
    describes.present entry member
  rw [name] at isRead
  have isReadOther := (same entry.mode entry.module content).1 isRead
  obtain ⟨found, ⟨isFound, sameMode, sameModule⟩, _⟩ :=
    describesOther.listed entry.mode entry.module content isReadOther
  have foundName := describesOther.fileName_eq found isFound
  obtain ⟨_, _, isFoundRead, foundDigest, isFoundText, foundItems, _⟩ :=
    describesOther.present found isFound
  rw [foundName, sameMode, sameModule, isReadOther] at isFoundRead
  obtain rfl := Except.ok.inj isFoundRead
  rw [isText] at isFoundText
  obtain rfl := Option.some.inj isFoundText
  have isEntry : found = entry := by
    cases found
    cases entry
    simp_all
  exact isEntry ▸ isFound

/-- The manifests that describe the same sets are the same. -/
theorem eq_of_sameSets
    (describes : manifest.Describes files folder)
    (describesOther : second.Describes other folder)
    (same : files.SameSets other folder) : manifest = second := by
  have sameOther : other.SameSets files folder :=
    fun mode module content => (same mode module content).symm
  have sets : manifest.sets = second.sets :=
    SetEntry.eq_of_pairwise_before describes.increasing describesOther.increasing
      fun _ => ⟨describes.mem_of_sameSets describesOther same,
        describesOther.mem_of_sameSets describes sameOther⟩
  cases manifest
  cases second
  rw [Manifest.mk.injEq]
  exact sets

end Manifest.Describes

/-- The groups of items that sets are packed from, by module. -/
abbrev DeliveredGroups := UInt32 → Option (List Item)

namespace FileTree

/-- The tree is the prepared one with the sets of the groups. Nothing is said of the
manifest but that it has no draft. -/
structure Delivers (prepared final : FileTree) (folder : Path)
    (groups : DeliveredGroups) : Prop where
  sets : ∀ (module : UInt32) (items : List Item) (mode : SetMode),
    groups module = some items →
    final.node? (folder.place ++ [mode.fileName module]) =
      some (.file (Records.render items).toUTF8)
  drafts : ∀ (module : UInt32) (mode : SetMode), groups module ≠ none →
    final.node? (folder.place ++ [draftName (mode.fileName module)]) = none
  manifestDraft :
    final.node? (folder.place ++ [draftName Manifest.fileName]) = none
  elsewhere : ∀ place, ¬Touches folder Manifest.fileName place →
    (∀ (module : UInt32) (mode : SetMode), groups module ≠ none →
      ¬Touches folder (mode.fileName module) place) →
    final.node? place = prepared.node? place

namespace Delivers

variable {prepared middle final other : FileTree} {folder : Path}
  {groups later : DeliveredGroups}

theorem not_touches_manifest
    {module : UInt32} {mode : SetMode} {place : Location}
    (touches : Touches folder (mode.fileName module) place) :
    ¬Touches folder Manifest.fileName place :=
  not_touches_of_ne (SetMode.isOpenName_fileName mode module)
    Manifest.isOpenName_fileName (SetMode.fileName_ne_manifest mode module) touches

/-- What the sets of one module touch is left alone by those of the others. -/
theorem node?_of_touches
    (delivers : middle.Delivers final folder later) {module : UInt32}
    {mode : SetMode} {place : Location}
    (touches : Touches folder (mode.fileName module) place)
    (isLast : later module = none) : final.node? place = middle.node? place := by
  apply delivers.elsewhere place (not_touches_manifest touches)
  intro otherModule otherMode isLater
  refine not_touches_of_ne (SetMode.isOpenName_fileName mode module)
    (SetMode.isOpenName_fileName otherMode otherModule) ?_ touches
  intro sameName
  obtain ⟨_, rfl⟩ := SetMode.fileName_inj.1 sameName
  exact isLater isLast

theorem trans
    (first : prepared.Delivers middle folder groups)
    (second : middle.Delivers final folder later) :
    prepared.Delivers final folder fun module => later module <|> groups module := by
  constructor
  case sets =>
    intro module items mode delivered
    cases isLater : later module with
    | some group =>
        rw [isLater] at delivered
        obtain rfl := Option.some.inj delivered
        exact second.sets module _ mode isLater
    | none =>
        rw [isLater] at delivered
        rw [second.node?_of_touches (Or.inl rfl) isLater]
        exact first.sets module items mode delivered
  case drafts =>
    intro module mode delivered
    cases isLater : later module with
    | some group => exact second.drafts module mode (by rw [isLater]; exact nofun)
    | none =>
        rw [isLater] at delivered
        rw [second.node?_of_touches (Or.inr rfl) isLater]
        exact first.drafts module mode delivered
  case manifestDraft => exact second.manifestDraft
  case elsewhere =>
    intro place notManifest notSet
    have notLater (module : UInt32) (mode : SetMode) (isLater : later module ≠ none) :
        ¬Touches folder (mode.fileName module) place := by
      apply notSet module mode
      obtain ⟨group, found⟩ := Option.ne_none_iff_exists'.1 isLater
      rw [found]
      exact nofun
    have notEarlier (module : UInt32) (mode : SetMode)
        (isEarlier : groups module ≠ none) :
        ¬Touches folder (mode.fileName module) place := by
      apply notSet module mode
      cases later module with
      | none => exact isEarlier
      | some group => exact nofun
    rw [second.elsewhere place notManifest notLater,
      first.elsewhere place notManifest notEarlier]

/-- Trees with the same sets delivered differ in the manifest at most. -/
theorem node?_eq
    (first : prepared.Delivers final folder groups)
    (second : prepared.Delivers other folder groups) {place : Location}
    (notManifest : place ≠ folder.place ++ [Manifest.fileName]) :
    final.node? place = other.node? place := by
  by_cases touches : Touches folder Manifest.fileName place
  · obtain rfl := touches.resolve_left notManifest
    rw [first.manifestDraft, second.manifestDraft]
  by_cases isSet : ∃ (module : UInt32) (mode : SetMode), groups module ≠ none ∧
      Touches folder (mode.fileName module) place
  · obtain ⟨module, mode, delivered, rfl | rfl⟩ := isSet
    · obtain ⟨items, isGroup⟩ := Option.ne_none_iff_exists'.1 delivered
      rw [first.sets module items mode isGroup, second.sets module items mode isGroup]
    · rw [first.drafts module mode delivered, second.drafts module mode delivered]
  · have notSet (module : UInt32) (mode : SetMode) (delivered : groups module ≠ none) :
        ¬Touches folder (mode.fileName module) place :=
      fun also => isSet ⟨module, mode, delivered, also⟩
    rw [first.elsewhere place touches notSet, second.elsewhere place touches notSet]

end Delivers

end FileTree

theorem PackRun.delivers
    {tree prepared written final : FileTree} {folder : Path}
    {groups : ModuleGroups} {manifest : Manifest}
    (run : PackRun tree prepared written final folder groups manifest)
    (distinct : (groups.map Prod.fst).Nodup) :
    prepared.Delivers final folder fun module => groups.lookup module := by
  have stored (place : Location)
      (notManifest : ¬FileTree.Touches folder Manifest.fileName place) :
      final.node? place = written.node? place := by
    apply run.stored.elsewhere place
    intro file member
    obtain rfl := List.mem_singleton.1 member
    exact notManifest
  constructor
  case sets =>
    intro module items mode delivered
    exact run.node?_set_of_mem ((mem_iff_lookup_eq distinct).2 delivered) mode
  case drafts =>
    intro module mode delivered
    obtain ⟨items, found⟩ := Option.ne_none_iff_exists'.1 delivered
    have isGroup := (mem_iff_lookup_eq distinct).2 found
    have isWritten := mem_groupFiles.2 ⟨module, items, mode, isGroup, rfl⟩
    rw [stored _ (FileTree.Delivers.not_touches_manifest (Or.inr rfl))]
    have noDraft := run.sets.noDraft _ isWritten
    exact noDraft
  case manifestDraft =>
    have noDraft := run.stored.noDraft _ (List.mem_singleton_self _)
    exact noDraft
  case elsewhere =>
    intro place notManifest notSet
    rw [stored place notManifest]
    apply run.sets.elsewhere place
    intro file member
    obtain ⟨module, items, mode, isGroup, rfl⟩ := mem_groupFiles.1 member
    apply notSet module mode
    rw [(mem_iff_lookup_eq distinct).1 isGroup]
    exact nofun

/-! ## Packings in turn -/

/-- What one packing is asked for: items, and their module if only one is packed. -/
structure PackRequest where
  items : List Item
  selected : Option UInt32

namespace PackRequest

/-- The group of a module that the request delivers. -/
def group? (request : PackRequest) : DeliveredGroups := fun module =>
  match deliveredItems request.selected module request.items with
  | [] => none
  | item :: rest => some (item :: rest)

theorem group?_eq_none_iff {request : PackRequest} {module : UInt32} :
    request.group? module = none ↔
      deliveredItems request.selected module request.items = [] := by
  rw [group?]
  split <;> simp [*]

theorem lookup_groups (request : PackRequest) (module : UInt32) :
    (groupByModule (selectedItems request.selected request.items)).lookup module =
      request.group? module := by
  rw [(holds_groupByModule _).lookup_eq, itemsOf_selectedItems, group?]
  split
  · rename_i nothing
    rw [nothing]
  · rename_i something
    split
    · exact absurd ‹_› something
    · rename_i delivered
      rw [delivered]

/-- The group of a module that was delivered last. -/
def lastGroup? : List PackRequest → DeliveredGroups
  | [], _ => none
  | request :: rest, module => lastGroup? rest module <|> request.group? module

theorem group?_of_nothing
    {request : PackRequest}
    (nothing : selectedItems request.selected request.items = []) (module : UInt32) :
    request.group? module = none := by
  rw [group?_eq_none_iff, ← itemsOf_selectedItems, nothing]
  rfl

theorem lastGroup?_of_nothing
    {request : PackRequest} {rest : List PackRequest}
    (nothing : selectedItems request.selected request.items = []) :
    lastGroup? (request :: rest) = lastGroup? rest := by
  funext module
  rw [lastGroup?, group?_of_nothing nothing]
  cases lastGroup? rest module <;> rfl

theorem lastGroup?_ne_none
    {request : PackRequest} {rest : List PackRequest} (module : UInt32)
    (delivered : request.group? module ≠ none) :
    lastGroup? (request :: rest) module ≠ none := by
  rw [lastGroup?]
  cases lastGroup? rest module with
  | none => exact delivered
  | some group => exact Option.some_ne_none group

theorem exists_group?_of_something
    {request : PackRequest}
    (something : selectedItems request.selected request.items ≠ []) :
    ∃ module, request.group? module ≠ none := by
  obtain ⟨item, member⟩ := List.exists_mem_of_ne_nil _ something
  refine ⟨item.module, ?_⟩
  rw [ne_eq, group?_eq_none_iff, ← itemsOf_selectedItems]
  exact List.ne_nil_of_mem (List.mem_filter.2 ⟨member, by simp⟩)

end PackRequest

/-- Packs what is asked for, one request after the other. -/
def packInTurn (folder : Path) (requests : List PackRequest) : Job (List Packing) :=
  requests.mapM fun request => pack request.items folder request.selected

/-- What packings leave of a tree when they deliver something. -/
structure PackedInTurn (tree final : FileTree) (folder : Path)
    (groups : DeliveredGroups) : Prop where
  something : ∃ module, groups module ≠ none
  delivers : ∃ prepared, tree.createFolders folder = (.ok (), prepared) ∧
    prepared.Delivers final folder groups
  hasFolder : final.HasFolder folder folder.place
  described : ∃ manifest : Manifest, manifest.Describes final folder ∧
    final.node? (folder.place ++ [Manifest.fileName]) =
      some (.file manifest.toJson.pretty.toUTF8)

namespace PackedInTurn

variable {tree middle final other : FileTree} {folder : Path}
  {groups later : DeliveredGroups}

theorem of_run
    {prepared written : FileTree} {request : PackRequest} {manifest : Manifest}
    (settled : tree.Settled folder)
    (something : selectedItems request.selected request.items ≠ [])
    (run : PackRun tree prepared written final folder
      (groupByModule (selectedItems request.selected request.items)) manifest) :
    PackedInTurn tree final folder request.group? := by
  have distinct :=
    (holds_groupByModule (selectedItems request.selected request.items)).distinct
  obtain ⟨held, lists⟩ := settled.lists_of_created run.created run.hasFolder
  have delivers := run.delivers distinct
  rw [show (fun module => _) = request.group? from
    funext request.lookup_groups] at delivers
  have isName := Manifest.isOpenName_fileName.isName
  constructor
  case something => exact PackRequest.exists_group?_of_something something
  case delivers => exact ⟨prepared, run.created, delivers⟩
  case hasFolder => exact run.hasFolder_final
  case described =>
    have stored := (run.hasFolder_final.read_join isName).1 run.read_manifest
    exact ⟨manifest, run.describes distinct lists, stored.2⟩

theorem usable (packed : PackedInTurn tree final folder groups) :
    folder.text = "" ∨ FileTree.checkPath folder = .ok () := by
  obtain ⟨_, created, _⟩ := packed.delivers
  exact FileTree.usable_of_createFolders created

/-- The folder is there after the first packing, so that the later ones create
nothing. -/
theorem trans
    (first : PackedInTurn tree middle folder groups)
    (second : PackedInTurn middle final folder later) :
    PackedInTurn tree final folder fun module => later module <|> groups module := by
  obtain ⟨prepared, created, delivers⟩ := first.delivers
  obtain ⟨between, createdAgain, deliversAgain⟩ := second.delivers
  rw [FileTree.createFolders_of_hasFolder first.hasFolder first.usable,
    Prod.mk.injEq] at createdAgain
  obtain ⟨_, rfl⟩ := createdAgain
  constructor
  case something =>
    obtain ⟨module, isLater⟩ := second.something
    obtain ⟨group, found⟩ := Option.ne_none_iff_exists'.1 isLater
    refine ⟨module, ?_⟩
    rw [found]
    exact nofun
  case delivers => exact ⟨prepared, created, delivers.trans deliversAgain⟩
  case hasFolder => exact second.hasFolder
  case described => exact second.described

theorem sameSets
    (first : PackedInTurn tree final folder groups)
    (second : PackedInTurn tree other folder groups) :
    final.SameSets other folder := by
  obtain ⟨prepared, created, delivers⟩ := first.delivers
  obtain ⟨_, createdAgain, deliversAgain⟩ := second.delivers
  rw [created, Prod.mk.injEq] at createdAgain
  obtain ⟨_, rfl⟩ := createdAgain
  intro mode module content
  have isName := (SetMode.isOpenName_fileName mode module).isName
  have notManifest : folder.place ++ [mode.fileName module] ≠
      folder.place ++ [Manifest.fileName] := by
    simpa using SetMode.fileName_ne_manifest mode module
  rw [first.hasFolder.read_join isName, second.hasFolder.read_join isName,
    delivers.node?_eq deliversAgain notManifest]

/-- The tree is determined by what was delivered. -/
theorem node?_eq
    (first : PackedInTurn tree final folder groups)
    (second : PackedInTurn tree other folder groups) (place : Location) :
    final.node? place = other.node? place := by
  by_cases isManifest : place = folder.place ++ [Manifest.fileName]
  · obtain ⟨manifest, describes, stored⟩ := first.described
    obtain ⟨_, describesOther, storedOther⟩ := second.described
    obtain rfl := describes.eq_of_sameSets describesOther (first.sameSets second)
    rw [isManifest, stored, storedOther]
  · obtain ⟨prepared, created, delivers⟩ := first.delivers
    obtain ⟨_, createdAgain, deliversAgain⟩ := second.delivers
    rw [created, Prod.mk.injEq] at createdAgain
    obtain ⟨_, rfl⟩ := createdAgain
    exact delivers.node?_eq deliversAgain isManifest

end PackedInTurn

/-- Packings in turn deliver the last group of each module, or leave all as it
was. -/
theorem yields_packInTurn
    {folder : Path} {requests : List PackRequest} {session after : Session}
    {packings : List Packing}
    (run : (packInTurn folder requests).Yields session packings after)
    (settled : session.files.Settled folder) :
    ((∀ module, PackRequest.lastGroup? requests module = none) ∧
        after.files = session.files) ∨
      PackedInTurn session.files after.files folder
        (PackRequest.lastGroup? requests) := by
  induction requests generalizing session packings with
  | nil =>
      obtain ⟨_, rfl⟩ := Job.yields_mapM_nil.1 run
      exact Or.inl ⟨fun _ => rfl, rfl⟩
  | cons request rest inductionHypothesis =>
      obtain ⟨packing, between, _, runFirst, runRest, _⟩ := Job.yields_mapM_cons.1 run
      by_cases nothing : selectedItems request.selected request.items = []
      · obtain ⟨_, rfl⟩ := yields_pack_of_nil nothing runFirst
        rw [PackRequest.lastGroup?_of_nothing nothing]
        exact inductionHypothesis runRest settled
      · obtain ⟨prepared, written, passes⟩ := yields_pack nothing runFirst
        have packed := PackedInTurn.of_run settled nothing passes
        have settledBetween := settled.of_run passes (holds_groupByModule _).distinct
        refine Or.inr ?_
        rcases inductionHypothesis runRest settledBetween with
          ⟨noMore, unchanged⟩ | packedRest
        · have sameGroups : PackRequest.lastGroup? (request :: rest) =
              request.group? := by
            funext module
            rw [PackRequest.lastGroup?, noMore module]
            rfl
          rw [sameGroups, unchanged]
          exact packed
        · exact packed.trans packedRest

/-- Packings that deliver the same last groups leave the same tree. -/
theorem node?_eq_of_packInTurn
    {folder : Path} {tree : FileTree} {requests others : List PackRequest}
    {packings otherPackings : List Packing} {session otherSession : Session}
    (settled : tree.Settled folder)
    (run : (packInTurn folder requests).runOn tree = (.ok packings, session))
    (otherRun : (packInTurn folder others).runOn tree =
      (.ok otherPackings, otherSession))
    (same : ∀ module, PackRequest.lastGroup? requests module =
      PackRequest.lastGroup? others module) (place : Location) :
    session.files.node? place = otherSession.files.node? place := by
  have sameGroups : PackRequest.lastGroup? requests = PackRequest.lastGroup? others :=
    funext same
  have outcome := yields_packInTurn (Job.yields_iff_runOn.2 run) settled
  have otherOutcome := yields_packInTurn (Job.yields_iff_runOn.2 otherRun) settled
  rw [← sameGroups] at otherOutcome
  rcases outcome with ⟨nothing, unchanged⟩ | packed
  · rcases otherOutcome with ⟨_, alsoUnchanged⟩ | packed
    · rw [unchanged, alsoUnchanged]
    · obtain ⟨module, delivered⟩ := packed.something
      exact absurd (nothing module) delivered
  · rcases otherOutcome with ⟨nothing, _⟩ | otherPacked
    · obtain ⟨module, delivered⟩ := packed.something
      exact absurd (nothing module) delivered
    · exact packed.node?_eq otherPacked place

end LectureQuiz
