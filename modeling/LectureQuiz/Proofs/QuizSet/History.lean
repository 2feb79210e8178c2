import LectureQuiz.Proofs.QuizSet.Listing
import LectureQuiz.Proofs.Records

/-!
# Histories of packing

A folder without content is packed into again and again, and between two packings
set files may be deleted. After every packing the manifest on disk describes the
folder as it is.
-/

namespace LectureQuiz

open LectureQuiz.Text

namespace FileTree

variable {tree other : FileTree} {folder : Path}

/-- The folder was never packed into, or its manifest lists the sets in it. -/
inductive Settled (tree : FileTree) (folder : Path) : Prop
  | vacant (vacant : tree.IsVacant folder)
  | listed (held : UInt32 → List Item) (has : tree.HasFolder folder folder.place)
      (usable : folder.text = "" ∨ checkPath folder = .ok ())
      (lists : tree.Lists folder held)

/-- Once a folder is created, its manifest is true. -/
theorem Settled.lists_of_created
    {prepared : FileTree} (settled : tree.Settled folder)
    (created : tree.createFolders folder = (.ok (), prepared))
    (has : prepared.HasFolder folder folder.place) :
    ∃ held, prepared.Lists folder held := by
  cases settled with
  | vacant vacant =>
      have ⟨grows, _⟩ := createFolders_ok created
      refine ⟨fun _ => [], lists_of_no_files ?_ has _⟩
      intro name isName content there
      rw [grows.node?_file_iff, vacant name isName] at there
      exact absurd there nofun
  | listed held hasBefore usable lists =>
      rw [createFolders_of_hasFolder hasBefore usable, Prod.mk.injEq] at created
      exact ⟨held, created.2 ▸ lists⟩

theorem Settled.of_run
    {prepared written : FileTree} {groups : ModuleGroups} {manifest : Manifest}
    (settled : tree.Settled folder)
    (run : PackRun tree prepared written other folder groups manifest)
    (distinct : (groups.map Prod.fst).Nodup) : other.Settled folder := by
  obtain ⟨held, lists⟩ := settled.lists_of_created run.created run.hasFolder
  exact .listed (heldAfter groups held) run.hasFolder_final
    (usable_of_createFolders run.created) (run.lists distinct lists)

/-- Of the names in the folder only the deleted one loses its node. -/
theorem node?_deleted
    {name otherName : String} (isName : IsName name) :
    (tree.restrict (!(folder.place ++ [name]).isPrefixOf ·)).node?
        (folder.place ++ [otherName]) =
      if otherName = name then none
      else tree.node? (folder.place ++ [otherName]) := by
  by_cases same : otherName = name
  · subst same
    rw [if_pos rfl]
    exact node?_restrict_self tree (isName.isAnchor_append folder.place)
  · rw [if_neg same]
    refine node?_restrict_of_apart tree ?_
    rintro ⟨rest, whole⟩
    rw [List.append_assoc, List.append_cancel_left_eq] at whole
    exact same (List.cons.inj whole).1.symm

theorem Lists.of_deleted
    {held : UInt32 → List Item} {mode : SetMode} {module : UInt32}
    {content : ByteArray} (lists : tree.Lists folder held)
    (has : tree.HasFolder folder folder.place)
    (isFile : tree.node? (folder.place ++ [mode.fileName module]) =
      some (.file content)) :
    (tree.restrict (!(folder.place ++ [mode.fileName module]).isPrefixOf ·)).Lists
      folder held := by
  have isName := (SetMode.isOpenName_fileName mode module).isName
  have sameManifest : (tree.restrict
      (!(folder.place ++ [mode.fileName module]).isPrefixOf ·)).manifest folder =
        tree.manifest folder := by
    refine manifest_congr (has.of_removed isFile) has ?_
    rw [node?_deleted isName,
      if_neg (SetMode.fileName_ne_manifest mode module).symm]
  constructor
  case increasing =>
    rw [sameManifest]
    exact lists.increasing
  case entry_eq =>
    rw [sameManifest]
    exact lists.entry_eq
  case fits =>
    rw [sameManifest]
    exact lists.fits
  case notFolder =>
    rw [sameManifest]
    intro entry member
    rw [node?_deleted isName]
    split
    · exact nofun
    · exact lists.notFolder entry member
  case file_eq =>
    rw [sameManifest]
    intro otherMode otherModule otherContent there
    rw [node?_deleted isName] at there
    split at there
    · exact absurd there nofun
    · exact lists.file_eq otherMode otherModule otherContent there

theorem Settled.of_deleted
    {mode : SetMode} {module : UInt32} {content : ByteArray}
    (settled : tree.Settled folder)
    (isRead : tree.read (folder.join (mode.fileName module)) = .ok content)
    (deleted : tree.remove? (folder.join (mode.fileName module)) = some other) :
    other.Settled folder := by
  have isName := (SetMode.isOpenName_fileName mode module).isName
  have isFile := node?_of_read isRead
  rw [place_join folder isName] at isFile
  cases settled with
  | vacant vacant =>
      rw [vacant _ isName] at isFile
      exact absurd isFile nofun
  | listed held has usable lists =>
      obtain ⟨_, _, rfl⟩ := (has.remove?_join isName).1 deleted
      exact .listed held (has.of_removed isFile) usable (lists.of_deleted has isFile)

end FileTree

/-- The trees that come from one in which the folder has no content, when items
are packed into the folder and set files in it are deleted. -/
inductive PackHistory (folder : Path) : FileTree → Prop
  | start {tree : FileTree} (vacant : tree.IsVacant folder) :
      PackHistory folder tree
  | packed {tree : FileTree} {items : List Item} {selected : Option UInt32}
      {packing : Packing} {session : Session}
      (before : PackHistory folder tree)
      (run : (pack items folder selected).runOn tree = (.ok packing, session)) :
      PackHistory folder session.files
  | deleted {tree other : FileTree} {mode : SetMode} {module : UInt32}
      {content : ByteArray} (before : PackHistory folder tree)
      (isRead : tree.read (folder.join (mode.fileName module)) = .ok content)
      (deleted : tree.remove? (folder.join (mode.fileName module)) = some other) :
      PackHistory folder other

theorem PackHistory.settled
    {folder : Path} {tree : FileTree} (history : PackHistory folder tree) :
    tree.Settled folder := by
  induction history with
  | start vacant => exact .vacant vacant
  | @packed tree items selected packing session _ run inductionHypothesis =>
      have yields := Job.yields_iff_runOn.2 run
      by_cases nothing : selectedItems selected items = []
      · obtain ⟨_, rfl⟩ := yields_pack_of_nil nothing yields
        exact inductionHypothesis
      · obtain ⟨_, _, passes⟩ := yields_pack nothing yields
        exact inductionHypothesis.of_run passes (holds_groupByModule _).distinct
  | deleted _ isRead deleted inductionHypothesis =>
      exact inductionHypothesis.of_deleted isRead deleted

/-- The manifest is the one in the folder, and it is true: it has one entry for
every set file that is there, and none besides. -/
structure Manifest.Describes (manifest : Manifest) (files : FileTree)
    (folder : Path) : Prop where
  stored : ∃ content text value,
    files.read (folder.join Manifest.fileName) = .ok content ∧
      text? content = some text ∧ Json.parse? text.toList = some value ∧
      Manifest.ofJson? value = some manifest
  increasing : manifest.sets.Pairwise SetEntry.Before
  fileName_eq : ∀ entry ∈ manifest.sets,
    entry.fileName = entry.mode.fileName entry.module
  listed : ∀ (mode : SetMode) (module : UInt32) (content : ByteArray),
    files.read (folder.join (mode.fileName module)) = .ok content →
      ∃! entry, entry ∈ manifest.sets ∧ entry.mode = mode ∧ entry.module = module
  present : ∀ entry ∈ manifest.sets, ∃ content text,
    files.read (folder.join entry.fileName) = .ok content ∧
      entry.digest = Sha256.hexText (Sha256.digest content.data.toList) ∧
      text? content = some text ∧
      entry.items =
        (Records.parse text : Records Item).records.length.toUInt64 ∧
      (Records.parse text : Records Item).skipped = 0
  twins : ∀ (module : UInt32) (practice memorize : ByteArray),
    files.read (folder.join (SetMode.practice.fileName module)) = .ok practice →
      files.read (folder.join (SetMode.memorize.fileName module)) = .ok memorize →
      practice = memorize

theorem PackRun.describes
    {tree prepared written final : FileTree} {folder : Path}
    {groups : ModuleGroups} {manifest : Manifest} {held : UInt32 → List Item}
    (run : PackRun tree prepared written final folder groups manifest)
    (distinct : (groups.map Prod.fst).Nodup)
    (lists : prepared.Lists folder held) :
    manifest.Describes final folder := by
  have after := run.lists distinct lists
  have has := run.hasFolder_final
  have isSetName (mode : SetMode) (module : UInt32) :=
    (SetMode.isOpenName_fileName mode module).isName
  have nameOf {entry : SetEntry} (member : entry ∈ manifest.sets) :
      entry.fileName = entry.mode.fileName entry.module :=
    after.fileName_eq (run.manifest_final ▸ member)
  constructor
  case stored =>
    refine ⟨_, _, manifest.toJson, run.read_manifest, text?_toUTF8 _, ?_,
      manifest.ofJson?_toJson⟩
    rw [Json.pretty, String.toList_ofList]
    exact Json.parse?_prettyChars manifest.isPlain_toJson 0
  case increasing =>
    rw [← run.manifest_final]
    exact after.increasing
  case fileName_eq =>
    exact fun entry member => nameOf member
  case listed =>
    intro mode module content isRead
    have there := ((has.read_join (isSetName mode module)).1 isRead).2
    have isListed := (after.file_eq mode module content there).2
    rw [run.manifest_final] at isListed
    refine ⟨_, ⟨isListed, rfl, rfl⟩, ?_⟩
    rintro entry ⟨member, rfl, rfl⟩
    exact (run.entry_facts distinct lists member).1
  case present =>
    intro entry member
    obtain ⟨whole, fits, there⟩ := run.entry_facts distinct lists member
    rw [nameOf member] at fits there ⊢
    refine ⟨_, _, (has.read_join (isSetName _ _)).2 ⟨fits, there⟩, ?_,
      text?_toUTF8 _, ?_, ?_⟩
    · rw [congrArg SetEntry.digest whole]
      rfl
    · rw [congrArg SetEntry.items whole, Records.parse_render]
      rfl
    · rw [Records.parse_render]
  case twins =>
    intro module practice memorize readPractice readMemorize
    have first := ((has.read_join (isSetName _ _)).1 readPractice).2
    have second := ((has.read_join (isSetName _ _)).1 readMemorize).2
    rw [(after.file_eq _ _ _ first).1, (after.file_eq _ _ _ second).1]

/-- After every packing of some items the manifest describes the folder, whatever
was packed and deleted before. Packing no items changes nothing. -/
theorem PackHistory.describes_of_pack
    {folder : Path} {tree : FileTree} (history : PackHistory folder tree)
    {items : List Item} {selected : Option UInt32} {packing : Packing}
    {session : Session}
    (run : (pack items folder selected).runOn tree = (.ok packing, session)) :
    ((∃ item ∈ items, selected.all (item.module == ·) = true) →
      packing.manifest.Describes session.files folder) ∧
    ((∀ item ∈ items, selected.all (item.module == ·) = false) →
      session.files = tree) := by
  have yields := Job.yields_iff_runOn.2 run
  constructor
  · rintro ⟨item, member, isSelected⟩
    have something : selectedItems selected items ≠ [] :=
      List.ne_nil_of_mem (List.mem_filter.2 ⟨member, isSelected⟩)
    obtain ⟨prepared, written, passes⟩ := yields_pack something yields
    obtain ⟨held, lists⟩ :=
      history.settled.lists_of_created passes.created passes.hasFolder
    exact passes.describes (holds_groupByModule _).distinct lists
  · intro noneSelected
    have nothing : selectedItems selected items = [] := by
      simpa [selectedItems, List.filter_eq_nil_iff] using noneSelected
    obtain ⟨_, rfl⟩ := yields_pack_of_nil nothing yields
    rfl

theorem FileTree.isVacant_empty (folder : Path) : empty.IsVacant folder := by
  intro name isName
  rw [node?, isName.isAnchor_append folder.place]
  rfl

def sampleItem (module : UInt32) : Item where
  id := "sample"
  module := module
  kind := .trueFalse
  question := "Is this an item?"
  choices := trueFalseChoices
  answerIndex := 0
  explanation := ""
  tags := TagSet.ofList []
  assets := .none

/-- Module three is packed, its practice set is deleted, and module four is
packed. -/
theorem describes_after_deletion :
    ∃ (tree : FileTree) (packing : Packing) (session : Session),
      PackHistory ⟨"out"⟩ tree ∧
        (pack [sampleItem 4] ⟨"out"⟩ none).runOn tree = (.ok packing, session) ∧
        packing.manifest.Describes session.files ⟨"out"⟩ := by
  let first := ((pack [sampleItem 3] ⟨"out"⟩ none).runOn .empty).2.files
  let path := (Path.mk "out").join (SetMode.practice.fileName 3)
  let second := (first.remove? path).getD .empty
  have ⟨firstOk, readOk, removedOk, secondOk⟩ :
      ((pack [sampleItem 3] ⟨"out"⟩ none).runOn .empty).1.isOk = true ∧
        (first.read path).isOk = true ∧ (first.remove? path).isSome = true ∧
        ((pack [sampleItem 4] ⟨"out"⟩ none).runOn second).1.isOk = true := by
    decide +kernel
  obtain ⟨_, firstRun⟩ := Job.exists_of_isOk firstOk
  obtain ⟨packing, secondRun⟩ := Job.exists_of_isOk secondOk
  obtain ⟨content, isRead⟩ : ∃ content, first.read path = .ok content := by
    cases isRead : first.read path with
    | ok content => exact ⟨content, rfl⟩
    | error fault =>
        rw [isRead] at readOk
        exact absurd readOk nofun
  have deleted : first.remove? path = some second := by
    obtain ⟨other, found⟩ := Option.isSome_iff_exists.1 removedOk
    simp only [second, found, Option.getD_some]
  have history : PackHistory ⟨"out"⟩ second :=
    .deleted (.packed (.start (FileTree.isVacant_empty _)) firstRun) isRead deleted
  exact ⟨second, packing, _, history, secondRun,
    (history.describes_of_pack secondRun).1 ⟨sampleItem 4, by simp, rfl⟩⟩

end LectureQuiz
