import LectureQuiz.Proofs.Stage.Inputs
import LectureQuiz.Proofs.Stage.Segment

/-!
# The bank from segments

A run over files of segments reads all of them, in the order of the files, and then writes
the bank of their segments. It repeats itself where it finds the same segments and the
bank.
-/

namespace LectureQuiz

open LectureQuiz.Text

variable {tree other final : FileTree} {session after : Session}
  {segments bank : Path} {rules : RuleSet}

/-- The path leads to a file that is a text. -/
def FileTree.HasText (tree : FileTree) (path : Path) : Prop :=
  ∃ content, tree.read path = .ok content ∧ (text? content).isSome = true

theorem hasText_of_yields
    {path : Path} {alpha : Type} [Record alpha] {records : List alpha}
    (yields : (Job.readRecords alpha path).Yields session records after) :
    session.files.HasText path := by
  obtain ⟨⟨content, text, isRead, isText, _⟩, _⟩ := Job.yields_readRecords.1 yields
  refine ⟨content, isRead, ?_⟩
  rw [isText]
  rfl

/-- The segments that a file with the content stores. Content that is no text has none. -/
def storedSegments (content : ByteArray) : List Segment :=
  match text? content with
  | some text => (Records.parse text).records
  | none => []

theorem storedSegments_of_text {content : ByteArray} {text : String}
    (isText : text? content = some text) :
    storedSegments content = (Records.parse text).records := by
  rw [storedSegments, isText]

/-- The segments in the texts of some files. -/
def segmentsIn (files : List (String × String)) : List Segment :=
  files.flatMap fun file => (Records.parse file.2).records

namespace FileTree

/-- The folder is there and its files are texts. -/
structure HasSegments (tree : FileTree) (segments : Path) : Prop where
  isFolder : tree.isFolder segments = true
  areTexts : ∀ file ∈ tree.filesIn segments "jsonl", (text? file.2).isSome = true

/-- The segments of each file in a folder, in the order of the files. -/
def segmentLists (tree : FileTree) (segments : Path) : List (List Segment) :=
  (tree.filesIn segments "jsonl").map fun file => storedSegments file.2

/-- The segments of all files in a folder. -/
def segmentsAt (tree : FileTree) (segments : Path) : List Segment :=
  (tree.segmentLists segments).flatten

theorem HasSegments.of_filesIn
    (has : tree.HasSegments segments) (keeps : tree.KeepsFolders other)
    (same : other.filesIn segments "jsonl" = tree.filesIn segments "jsonl") :
    other.HasSegments segments where
  isFolder := isFolder_of_keepsFolders keeps has.isFolder
  areTexts := same ▸ has.areTexts

theorem segmentsAt_congr
    (same : other.filesIn segments "jsonl" = tree.filesIn segments "jsonl") :
    other.segmentsAt segments = tree.segmentsAt segments := by
  rw [segmentsAt, segmentLists, same, segmentsAt, segmentLists]

namespace Supplies

variable {files : List (String × String)}

theorem hasSegments
    (supplies : tree.Supplies segments "jsonl"
      (files.map fun file => (file.1, file.2.toUTF8))) : tree.HasSegments segments where
  isFolder := supplies.isFolder
  areTexts := by
    intro file member
    rw [supplies.filesIn_eq isExtension_jsonl.notEmpty] at member
    obtain ⟨input, _, rfl⟩ := List.mem_map.1 member
    rw [text?_toUTF8]
    rfl

theorem segmentsAt_eq
    (supplies : tree.Supplies segments "jsonl"
      (files.map fun file => (file.1, file.2.toUTF8))) :
    tree.segmentsAt segments = segmentsIn files := by
  rw [segmentsAt, segmentLists, supplies.filesIn_eq isExtension_jsonl.notEmpty,
    List.map_map, segmentsIn, List.flatMap_def]
  congr 1
  exact List.map_congr_left fun file _ => storedSegments_of_text (text?_toUTF8 file.2)

end Supplies

end FileTree

/-- Reads the segments of all files in a folder. -/
def readSegments (segments : Path) : Job (List (List Segment)) := do
  let files ← inputFiles segments "jsonl"
  forEachFile files fun file => Job.readRecords Segment file.path

theorem onlyReads_readSegments (segments : Path) : (readSegments segments).OnlyReads :=
  (onlyReads_inputFiles segments "jsonl").bind FileTree.isChange_eq fun files =>
    onlyReads_forEachFile (fun file => Job.relates_readRecords FileTree.isChange_eq file.path)
      files

theorem exists_yields_readSegments (has : session.files.HasSegments segments) :
    ∃ after, (readSegments segments).Yields session (session.files.segmentLists segments)
        after ∧
      after.files = session.files := by
  have lists : (inputFiles segments "jsonl").Yields session _ session :=
    yields_inputFiles_iff.2 ⟨has.isFolder, rfl, rfl⟩
  have oneStep : ∀ (done : List (String × ByteArray)) (file : String × ByteArray),
      done ++ [file] <+: session.files.filesIn segments "jsonl" → ∀ between : Session,
        between.files = session.files →
        ∃ after, (Job.readRecords Segment (segments.join file.1)).Yields between
            (storedSegments file.2) after ∧
          after.files = session.files := by
    intro done file isNext between same
    have member : file ∈ session.files.filesIn segments "jsonl" :=
      isNext.subset (List.mem_append_right done List.mem_cons_self)
    have isRead := (FileTree.mem_filesIn.1 member).2
    rw [← same] at isRead
    obtain ⟨text, isText⟩ := Option.isSome_iff_exists.1 (has.areTexts file member)
    refine ⟨between, ?_, same⟩
    exact Job.yields_readRecords.2
      ⟨⟨file.2, text, isRead, isText, storedSegments_of_text isText⟩, rfl⟩
  obtain ⟨after, reads, same⟩ := @yields_forEachFile _ _
    (fun file => Job.readRecords Segment file.path) (session.files.filesIn segments "jsonl")
    (fun file => ⟨segments.join file.1, nameStem file.1⟩) (fun file => storedSegments file.2)
    (fun _ tree => tree = session.files) oneStep session rfl
  exact ⟨after, Job.yields_bind.2 ⟨_, _, lists, reads⟩, same⟩

/-- What has been read as segments was a text. -/
theorem yields_readSegments
    {contents : List (List Segment)}
    (yields : (readSegments segments).Yields session contents after) :
    session.files.HasSegments segments ∧ contents = session.files.segmentLists segments ∧
      after.files = session.files := by
  obtain ⟨files, _, lists, reads⟩ := Job.yields_bind.1 yields
  obtain ⟨isFolder, rfl, isSame⟩ := yields_inputFiles_iff.1 lists
  obtain rfl := isSame.symm
  have has : session.files.HasSegments segments := by
    refine ⟨isFolder, fun file member => ?_⟩
    obtain ⟨between, _, _, yieldsFile, same⟩ := yields_of_mem_forEachFile
      (fun file => Job.relates_readRecords FileTree.isChange_eq file.path) reads
      (List.mem_map_of_mem member)
    obtain ⟨content, isRead, isText⟩ := hasText_of_yields yieldsFile
    rw [same] at isRead
    obtain rfl := Except.ok.inj (isRead.symm.trans (FileTree.mem_filesIn.1 member).2)
    exact isText
  obtain ⟨_, yieldsToo, same⟩ := exists_yields_readSegments has
  obtain ⟨rfl, rfl⟩ := Job.yields_unique yields yieldsToo
  exact ⟨has, rfl, same⟩

theorem FileTree.HasSegments.repeats (has : tree.HasSegments segments) :
    (readSegments segments).Repeats (tree.segmentLists segments) tree := by
  intro session like
  have same : session.files.filesIn segments "jsonl" = tree.filesIn segments "jsonl" :=
    like.symm.filesIn_eq isExtension_jsonl.notEmpty
  obtain ⟨after, yields, unchanged⟩ :=
    exists_yields_readSegments (has.of_filesIn like.symm.keepsFolders same)
  rw [FileTree.segmentLists, same] at yields
  exact ⟨after, yields, unchanged ▸ like⟩

/-- The report of a run that has drawn the segments. -/
def generateReport (rules : RuleSet) (bank : Path) (drawn : List Segment) :
    GenerateReport :=
  ⟨bank, drawn.length, (Bank.generate rules drawn).length⟩

/-- The bytes of the bank of some segments. -/
def bankBytes (rules : RuleSet) (drawn : List Segment) : ByteArray :=
  (Records.render (Bank.generate rules drawn)).toUTF8

theorem generate_eq (rules : RuleSet) (segments bank : Path) :
    generate rules segments bank = (do
      let contents ← readSegments segments
      Job.writeRecords bank (Bank.generate rules contents.flatten)
      return generateReport rules bank contents.flatten) := by
  rw [generate, readSegments, bind_assoc]
  rfl

/-- The run writes the bank, after the folders that lead to it were created. -/
theorem yields_generate_of_hasSegments
    {made : FileTree} {place : Location} (rules : RuleSet)
    (has : session.files.HasSegments segments)
    (created : session.files.createAll bank.parent?.toList = some made)
    (isTarget : made.target bank = .ok place)
    (notFolder : made.node? place ≠ some .folder) :
    ∃ after, (generate rules segments bank).Yields session
        (generateReport rules bank (session.files.segmentsAt segments)) after ∧
      after.files.read bank =
        .ok (bankBytes rules (session.files.segmentsAt segments)) := by
  obtain ⟨between, yields, same⟩ := exists_yields_readSegments has
  have written : made.write bank
      (bankBytes rules (session.files.segmentsAt segments)) = .ok _ :=
    FileTree.write_eq_ok.2 ⟨place, isTarget, notFolder, rfl⟩
  rw [← same] at created
  refine ⟨{ between with files := _ }, ?_, FileTree.read_of_write written⟩
  rw [generate_eq]
  refine Job.yields_bind.2 ⟨_, between, yields, ?_⟩
  refine Job.yields_bind.2 ⟨(), _, ?_, Job.yields_pure.2 ⟨rfl, rfl⟩⟩
  exact Job.yields_writeRecords.2 ⟨made, _, created, written, rfl⟩

theorem yields_generate
    {files : List (String × String)} {made : FileTree} {place : Location} (rules : RuleSet)
    (supplies : session.files.Supplies segments "jsonl"
      (files.map fun file => (file.1, file.2.toUTF8)))
    (created : session.files.createAll bank.parent?.toList = some made)
    (isTarget : made.target bank = .ok place)
    (notFolder : made.node? place ≠ some .folder) :
    ∃ after, (generate rules segments bank).Yields session
        ⟨bank, (segmentsIn files).length,
          (Bank.generate rules (segmentsIn files)).length⟩ after ∧
      after.files.read bank =
        .ok (Records.render (Bank.generate rules (segmentsIn files))).toUTF8 := by
  have yields := yields_generate_of_hasSegments rules supplies.hasSegments created isTarget
    notFolder
  rw [supplies.segmentsAt_eq] at yields
  exact yields

/-- What a run leaves: the folders that lead to the bank are there, and the bank is, in
which the items of all segments are. -/
structure FileTree.HasBank (tree final : FileTree) (rules : RuleSet) (segments bank : Path) :
    Prop where
  keeps : tree.KeepsFolders final
  created : final.createAll bank.parent?.toList = some final
  isTarget : final.target bank = .ok bank.place
  isBank : final.node? bank.place =
    some (.file (bankBytes rules (tree.segmentsAt segments)))
  elsewhere : ∀ place, place ≠ bank.place → tree.SameFile final place

theorem hasBank_of_yields
    {report : GenerateReport}
    (yields : (generate rules segments bank).Yields session report after) :
    session.files.HasSegments segments ∧
      report = generateReport rules bank (session.files.segmentsAt segments) ∧
      session.files.HasBank after.files rules segments bank := by
  rw [generate_eq] at yields
  obtain ⟨contents, between, reads, yieldsRest⟩ := Job.yields_bind.1 yields
  obtain ⟨has, rfl, same⟩ := yields_readSegments reads
  obtain ⟨_, _, writes, returns⟩ := Job.yields_bind.1 yieldsRest
  obtain ⟨rfl, rfl⟩ := Job.yields_pure.1 returns
  obtain ⟨made, final, created, written, rfl⟩ := Job.yields_writeRecords.1 writes
  rw [same] at created
  have grows := FileTree.grows_of_createAll created
  have keepsMade := FileTree.keepsFolders_write written
  obtain ⟨place, isTarget, _, rfl⟩ := FileTree.write_eq_ok.1 written
  obtain ⟨rfl, inner, name, isName, isPlace⟩ := FileTree.eq_place_of_target isTarget
  refine ⟨has, rfl, ?_⟩
  constructor
  case keeps => exact fun folder isFolder => keepsMade folder (grows.node?_of_some isFolder)
  case created => exact FileTree.createAll_of_kept created keepsMade
  case isTarget => exact FileTree.target_of_keepsFolders isTarget keepsMade
  case isBank =>
    apply FileTree.node?_put_self
    rw [isPlace]
    exact isName.isAnchor_append inner
  case elsewhere =>
    intro place different
    apply (grows.sameFile place).trans
    exact .of_node?_eq (FileTree.node?_put_of_ne _ _ different)

/-- Where the segments are the same and the bank is there, the run repeats itself. -/
theorem FileTree.HasBank.repeats
    (hasBank : tree.HasBank final rules segments bank) (keeps : final.KeepsFolders other)
    (has : other.HasSegments segments)
    (same : other.segmentsAt segments = tree.segmentsAt segments)
    (sameBank : final.SameFile other bank.place) :
    (generate rules segments bank).Repeats
      (generateReport rules bank (tree.segmentsAt segments)) other := by
  rw [generate_eq, ← same]
  have writes := Job.Repeats.writeRecords (createAll_of_kept hasBank.created keeps)
    (target_of_keepsFolders hasBank.isTarget keeps) ((sameBank _).2 hasBank.isBank)
  rw [← same] at writes
  exact has.repeats.bind (writes.bind (.pure _ _))

end LectureQuiz
