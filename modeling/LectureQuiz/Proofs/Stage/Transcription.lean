import LectureQuiz.Proofs.Stage.Inputs
import LectureQuiz.Proofs.Stage.Segment

/-!
# Stages that write a file for each file

Two stages have one shape: they list the files of a folder, create another folder, and
write there the file of one document for each file they listed. What such a run leaves
is told by the list of its steps, whatever was in the folders before, and this is all
that a second run needs in order to do the same again.
-/

namespace LectureQuiz

open LectureQuiz.Text

/-- The reports of the files that are done, out of a number of files. -/
def fileReports (total : Nat) (names : List String) : List Progress :=
  names.mapIdx fun position name => .file (nameStem name) (position + 1) total

theorem fileReports_concat (total : Nat) (names : List String) (name : String) :
    fileReports total (names ++ [name]) =
      fileReports total names ++ [.file (nameStem name) (names.length + 1) total] :=
  List.mapIdx_concat

/-- A stage that writes the file of a document for each of its input files. The plan
is what a job makes of the stem of a file's name and of its content. -/
structure Transcription (alpha : Type) where
  folder : Path
  out : Path
  source : String
  target : String
  job : InputFile → Job alpha
  plan : String → ByteArray → Option (Document × alpha)
  content : Document → ByteArray
  isSource : IsExtension source
  isTarget : IsExtension target
  different : source ≠ target
  /-- In the folder of the outputs the job reads its file and writes the document's
  file, and does nothing else. -/
  yields_iff : ∀ {session after : Session} {file : InputFile} {value : alpha},
    session.files.HasFolder out out.place →
    (∀ bytes result, session.files.read file.path = .ok bytes →
      plan file.stem bytes = some result → '/' ∉ result.1.videoId.toList) →
    ((job file).Yields session value after ↔
      ∃ bytes document other, session.files.read file.path = .ok bytes ∧
        plan file.stem bytes = some (document, value) ∧
        session.files.write (out.join (document.fileName target))
          (content document) = .ok other ∧
        after = { session with files := other })

/-- A step of a run: a file, the document it was turned into, and the result. -/
structure Step (alpha : Type) where
  name : String
  bytes : ByteArray
  document : Document
  value : alpha

def Step.file {alpha : Type} (step : Step alpha) : String × ByteArray :=
  (step.name, step.bytes)

namespace Transcription

open FileTree

variable {alpha : Type}

def run (stage : Transcription alpha) : Job (List alpha) := do
  let files ← inputFiles stage.folder stage.source
  Job.createFolders stage.out
  forEachFile files stage.job

/-- The files that some steps write. -/
def writes (stage : Transcription alpha) (steps : List (Step alpha)) : Writes :=
  documentWrites stage.out stage.target stage.content (steps.map Step.document)

/-- No input file is turned into a document whose id would lead to another folder. -/
def Safe (stage : Transcription alpha) (tree : FileTree) : Prop :=
  ∀ name bytes result, nameExtension? name = some stage.source →
    tree.node? (stage.folder.place ++ [name]) = some (.file bytes) →
    stage.plan (nameStem name) bytes = some result →
      '/' ∉ result.1.videoId.toList

/-- A step does what the stage has planned, and its file can be written. -/
structure Plans (stage : Transcription alpha) (step : Step alpha) : Prop where
  isName : IsName step.name
  readable : stage.folder.Fits step.name
  planned : stage.plan (nameStem step.name) step.bytes =
    some (step.document, step.value)
  noSlash : '/' ∉ step.document.videoId.toList
  writable : stage.out.Fits (step.document.fileName stage.target)

/-- What a run leaves: the folder of the outputs was created, and then the files of
the steps were written, one step for every input file. -/
structure Leaves (stage : Transcription alpha) (tree made final : FileTree)
    (steps : List (Step alpha)) : Prop where
  isFolder : tree.isFolder stage.folder = true
  inputs : tree.filesIn stage.folder stage.source = steps.map Step.file
  created : tree.createFolders stage.out = (.ok (), made)
  plans : ∀ step ∈ steps, stage.Plans step
  updates : final.Updates made (stage.writes steps)

variable {stage : Transcription alpha} {tree base made final other : FileTree}
  {steps : List (Step alpha)}

theorem writes_concat (step : Step alpha) (place : Location) :
    stage.writes (steps ++ [step]) place =
      if place = stage.out.place ++ [step.document.fileName stage.target] then
        some (stage.content step.document)
      else stage.writes steps place := by
  rw [writes, List.map_append]
  exact documentWrites_concat place

theorem eq_content_of_writes
    {place : Location} {bytes : ByteArray}
    (written : stage.writes steps place = some bytes) :
    ∃ step ∈ steps, place = stage.out.place ++ [step.document.fileName stage.target] ∧
      bytes = stage.content step.document := by
  rcases eq_content_of_documentWrites written with ⟨document, member, isPlace, isBytes⟩
  rcases List.mem_map.1 member with ⟨step, isStep, rfl⟩
  exact ⟨step, isStep, isPlace, isBytes⟩

theorem exists_of_writes
    {place : Location} (written : stage.writes steps place ≠ none) :
    ∃ step ∈ steps,
      place = stage.out.place ++ [step.document.fileName stage.target] := by
  rcases Option.ne_none_iff_exists'.1 written with ⟨bytes, isWritten⟩
  rcases eq_content_of_writes isWritten with ⟨step, member, isPlace, _⟩
  exact ⟨step, member, isPlace⟩

theorem writes_ne_none {step : Step alpha} (member : step ∈ steps) :
    stage.writes steps
      (stage.out.place ++ [step.document.fileName stage.target]) ≠ none := by
  rw [writes, documentWrites_fileName, Ne, Option.map_eq_none_iff,
    latest?_eq_none_iff]
  intro nowhere
  exact nowhere step.document (List.mem_map_of_mem member) rfl

/-- The files of the steps have another extension than the input files. -/
theorem node?_input
    (updates : tree.Updates base (stage.writes steps)) {name : String}
    (hasExtension : nameExtension? name = some stage.source) :
    tree.node? (stage.folder.place ++ [name]) =
      base.node? (stage.folder.place ++ [name]) := by
  apply updates.node?_of_none
  exact documentWrites_of_extension stage.isTarget stage.different hasExtension

/-! ## What a run leaves -/

theorem hasFolder_of_created
    {path : Path} (created : tree.createFolders path = (.ok (), made)) :
    made.HasFolder path path.place := by
  rcases (createFolders_ok created).2 with ⟨location, has⟩
  exact has.eq_place ▸ has

/-- The job of one file succeeds when it has planned a step for what is in the file and
no folder is in the way, and then writes the file of the document. -/
theorem yields_job_iff
    {session after : Session} {value : alpha} {name : String} {bytes : ByteArray}
    (has : session.files.HasFolder stage.folder stage.folder.place)
    (hasOut : session.files.HasFolder stage.out stage.out.place)
    (isName : IsName name)
    (isFile : session.files.node? (stage.folder.place ++ [name]) =
      some (.file bytes))
    (safe : ∀ result, stage.plan (nameStem name) bytes = some result →
      '/' ∉ result.1.videoId.toList) :
    (stage.job ⟨stage.folder.join name, nameStem name⟩).Yields session value after ↔
      ∃ document, stage.Plans ⟨name, bytes, document, value⟩ ∧
        session.files.node?
          (stage.out.place ++ [document.fileName stage.target]) ≠ some .folder ∧
        after =
          { session with
            files := session.files.put
              (stage.out.place ++ [document.fileName stage.target])
              (.file (stage.content document)) } := by
  have isRead {content : ByteArray} :
      session.files.read (stage.folder.join name) = .ok content ↔
        stage.folder.Fits name ∧ content = bytes := by
    rw [has.read_join isName, isFile, Option.some.injEq, Node.file.injEq,
      @eq_comm _ bytes]
  have safeHere : ∀ content result,
      session.files.read (stage.folder.join name) = .ok content →
      stage.plan (nameStem name) content = some result →
        '/' ∉ result.1.videoId.toList := by
    intro content result readsContent
    rw [(isRead.1 readsContent).2]
    exact safe result
  rw [@stage.yields_iff session after ⟨stage.folder.join name, nameStem name⟩ value
    hasOut safeHere]
  constructor
  · intro writesOne
    rcases writesOne with
      ⟨content, document, other, readsContent, planned, written, isAfter⟩
    rcases isRead.1 readsContent with ⟨readable, rfl⟩
    have noSlash := safe _ planned
    have isTargetName := Document.isName_fileName noSlash stage.isTarget
    rcases (hasOut.write_join isTargetName).1 written with
      ⟨writable, notFolder, rfl⟩
    exact ⟨document, ⟨isName, readable, planned, noSlash, writable⟩, notFolder,
      isAfter⟩
  · intro writesOne
    rcases writesOne with ⟨document, plans, notFolder, isAfter⟩
    have isTargetName := Document.isName_fileName plans.noSlash stage.isTarget
    have written : session.files.write
        (stage.out.join (document.fileName stage.target)) (stage.content document) =
          .ok _ := (hasOut.write_join isTargetName).2 ⟨plans.writable, notFolder, rfl⟩
    exact ⟨bytes, document, _, isRead.2 ⟨plans.readable, rfl⟩, plans.planned,
      written, isAfter⟩

theorem updates_put
    {step : Step alpha} (updates : tree.Updates base (stage.writes steps))
    (plans : stage.Plans step)
    (notFolder : tree.node?
      (stage.out.place ++ [step.document.fileName stage.target]) ≠ some .folder) :
    (tree.put (stage.out.place ++ [step.document.fileName stage.target])
      (.file (stage.content step.document))).Updates base
        (stage.writes (steps ++ [step])) := by
  have isName := Document.isName_fileName plans.noSlash stage.isTarget
  have inside := isName.isAnchor_append stage.out.place
  exact (updates.put inside notFolder (stage.content step.document)).congr
    (writes_concat step)

/-- What some steps have written over a tree in which the folder of the outputs was
created. -/
structure Reaches (stage : Transcription alpha) (made : FileTree)
    (steps : List (Step alpha)) (tree : FileTree) : Prop where
  plans : ∀ step ∈ steps, stage.Plans step
  updates : tree.Updates made (stage.writes steps)

/-- The input files are the same on the way. -/
theorem Reaches.node?_file
    (reaches : stage.Reaches made steps other) (wellNamed : tree.WellNamed)
    (created : tree.createFolders stage.out = (.ok (), made)) {item : String × ByteArray}
    (member : item ∈ tree.filesIn stage.folder stage.source) :
    other.node? (stage.folder.place ++ [item.1]) = some (.file item.2) := by
  rcases of_mem_filesIn wellNamed stage.isSource.notEmpty member with
    ⟨_, hasExtension, isFile⟩
  have grows := (createFolders_ok created).1
  exact (node?_input reaches.updates hasExtension).trans (grows.node?_file_iff.2 isFile)

/-- One more input file is one more step. -/
theorem Reaches.next
    (safe : stage.Safe tree) (wellNamed : tree.WellNamed)
    (isFolder : tree.isFolder stage.folder = true)
    (created : tree.createFolders stage.out = (.ok (), made))
    {item : String × ByteArray}
    (member : item ∈ tree.filesIn stage.folder stage.source)
    {session after : Session} {result : alpha}
    (reaches : stage.Reaches made steps session.files)
    (yields : (stage.job ⟨stage.folder.join item.1, nameStem item.1⟩).Yields session
      result after) :
    ∃ step : Step alpha, step.file = item ∧ step.value = result ∧
      after.progress = session.progress ∧
      stage.Reaches made (steps ++ [step]) after.files := by
  rcases of_mem_filesIn wellNamed stage.isSource.notEmpty member with
    ⟨isName, hasExtension, isFile⟩
  have grows := (createFolders_ok created).1
  have has := (hasFolder_of_isFolder isFolder).of_folders
    fun _ isThere => grows.node?_of_some isThere
  have updates := reaches.updates
  have isFileStill := reaches.node?_file wellNamed created member
  rcases (yields_job_iff (updates.hasFolder has)
      (updates.hasFolder (hasFolder_of_created created)) isName isFileStill
      (fun result => safe item.1 item.2 result hasExtension isFile)).1 yields with
    ⟨document, plans, notFolder, rfl⟩
  refine ⟨⟨item.1, item.2, document, result⟩, rfl, rfl, rfl, ?_, ?_⟩
  · exact List.forall_mem_append.2
      ⟨reaches.plans, List.forall_mem_singleton.2 plans⟩
  · exact updates_put updates plans notFolder

/-- The input files can be read on the way. -/
theorem Reaches.read_file
    (reaches : stage.Reaches made steps other) (wellNamed : tree.WellNamed)
    (created : tree.createFolders stage.out = (.ok (), made)) {item : String × ByteArray}
    (member : item ∈ tree.filesIn stage.folder stage.source) :
    other.read (stage.folder.join item.1) = .ok item.2 := by
  rcases of_mem_filesIn wellNamed stage.isSource.notEmpty member with ⟨isName, _, isFile⟩
  have isRead := (FileTree.mem_filesIn.1 member).2
  have keeps : tree.KeepsFolders other := fun place isThere =>
    reaches.updates.keepsFolders place
      ((createFolders_ok created).1.node?_of_some isThere)
  apply read_of_kept isRead keeps
  rw [place_join _ isName, reaches.node?_file wellNamed created member, isFile]

/-- A run in which the input files were listed and the folder of the outputs was created
goes through some of the files. It ends well after the last one, or fails at the first
one for which the job fails. -/
theorem exists_reached
    {session : Session} (safe : stage.Safe session.files)
    (wellNamed : session.files.WellNamed)
    (isFolder : session.files.isFolder stage.folder = true)
    (created : session.files.createFolders stage.out = (.ok (), made)) :
    ∃ steps rest reached,
      session.files.filesIn stage.folder stage.source = steps.map Step.file ++ rest ∧
      stage.Reaches made steps reached.files ∧
      reached.progress = session.progress ++
        fileReports (steps.length + rest.length) (steps.map Step.name) ∧
      (rest = [] ∧ stage.run.Yields session (steps.map Step.value) reached ∨
        ∃ next others error after, rest = next :: others ∧
          (stage.job ⟨stage.folder.join next.1, nameStem next.1⟩).Fails reached error
            after ∧
          stage.run.Fails session error after) := by
  let inputs := session.files.filesIn stage.folder stage.source
  have lists : (inputFiles stage.folder stage.source).Yields session
      (inputs.map fun file => ⟨stage.folder.join file.1, nameStem file.1⟩) session :=
    yields_inputFiles_iff.2 ⟨isFolder, rfl, rfl⟩
  have creates : (Job.createFolders stage.out).Yields session ()
      { session with files := made } := Job.yields_createFolders.2 ⟨made, created, rfl⟩
  let keeps (done : List (Step alpha)) (between : Session) : Prop :=
    stage.Reaches made done between.files ∧
      between.progress =
        session.progress ++ fileReports inputs.length (done.map Step.name)
  have start : keeps [] { session with files := made } :=
    ⟨⟨nofun, (Updates.refl made).congr fun _ => rfl⟩, (List.append_nil _).symm⟩
  have oneStep : ∀ (done : List (Step alpha)) (item : String × ByteArray),
      done.map Step.file ++ [item] <+: inputs →
      ∀ (between after : Session) (result : alpha), keeps done between →
        (stage.job ⟨stage.folder.join item.1, nameStem item.1⟩).Yields between result
          after →
        ∃ step : Step alpha, step.file = item ∧ step.value = result ∧
          keeps (done ++ [step]) { after with progress := after.progress ++
            [.file (nameStem item.1) (done.length + 1) inputs.length] } := by
    intro done item isNext between after result kept yields
    rcases kept with ⟨reaches, reports⟩
    have member : item ∈ inputs :=
      isNext.subset (List.mem_append_right _ List.mem_cons_self)
    rcases reaches.next safe wellNamed isFolder created member yields with
      ⟨step, isItem, isResult, reported, reachesOn⟩
    refine ⟨step, isItem, isResult, reachesOn, ?_⟩
    subst isItem
    rw [reported, reports, List.append_assoc, List.map_append, List.map_singleton,
      fileReports_concat, List.length_map]
    rfl
  rcases exists_steps_forEachFile _ Step.file Step.value keeps oneStep start with
    ⟨steps, rest, reached, areInputs, ⟨reaches, reports⟩, ending⟩
  have count : inputs.length = steps.length + rest.length := by
    rw [areInputs, List.length_append, List.length_map]
  rw [count] at reports
  refine ⟨steps, rest, reached, areInputs, reaches, reports, ?_⟩
  rcases ending with ⟨isEnd, runs⟩ | ⟨next, others, error, after, isNext, fails, stops⟩
  · exact Or.inl ⟨isEnd, Job.yields_bind.2
      ⟨_, _, lists, Job.yields_bind.2 ⟨_, _, creates, runs⟩⟩⟩
  · exact Or.inr ⟨next, others, error, after, isNext, fails, Job.fails_bind.2 (Or.inr
      ⟨_, _, lists, Job.fails_bind.2 (Or.inr ⟨_, _, creates, stops⟩)⟩)⟩

theorem exists_leaves
    {session after : Session} {values : List alpha}
    (safe : stage.Safe session.files) (wellNamed : session.files.WellNamed)
    (yields : stage.run.Yields session values after) :
    ∃ made steps, stage.Leaves session.files made after.files steps ∧
      values = steps.map Step.value := by
  rcases Job.yields_bind.1 yields with ⟨files, _, lists, yieldsRest⟩
  rcases yields_inputFiles_iff.1 lists with ⟨isFolder, _, rfl⟩
  rcases Job.yields_bind.1 yieldsRest with ⟨_, _, creates, _⟩
  rcases Job.yields_createFolders.1 creates with ⟨made, created, _⟩
  rcases exists_reached safe wellNamed isFolder created with
    ⟨steps, rest, reached, areInputs, ⟨plans, updates⟩, _,
      ⟨rfl, runs⟩ | ⟨_, _, _, _, _, _, fails⟩⟩
  · obtain ⟨rfl, rfl⟩ := Job.yields_unique yields runs
    rw [List.append_nil] at areInputs
    exact ⟨made, steps, ⟨isFolder, areInputs, created, plans, updates⟩, rfl⟩
  · exact absurd yields fails.not_yields

namespace Leaves

theorem grows (leaves : stage.Leaves tree made final steps) : tree.Grows made :=
  (createFolders_ok leaves.created).1

theorem keepsFolders (leaves : stage.Leaves tree made final steps) :
    tree.KeepsFolders final :=
  fun _ isThere =>
    leaves.updates.keepsFolders _ (leaves.grows.node?_of_some isThere)

theorem hasFolder_out (leaves : stage.Leaves tree made final steps) :
    final.HasFolder stage.out stage.out.place :=
  leaves.updates.hasFolder (hasFolder_of_created leaves.created)

/-- Only the names of documents in the folder of the outputs get other files. -/
theorem sameFile
    (leaves : stage.Leaves tree made final steps) {place : Location}
    (apart : ∀ step ∈ steps,
      place ≠ stage.out.place ++ [step.document.fileName stage.target]) :
    tree.SameFile final place := by
  apply (leaves.grows.sameFile place).trans
  apply SameFile.of_node?_eq
  apply leaves.updates.node?_of_none
  refine Decidable.not_not.1 fun written => ?_
  rcases exists_of_writes written with ⟨step, member, isPlace⟩
  exact apart step member isPlace

theorem isName_fileName
    (leaves : stage.Leaves tree made final steps) {step : Step alpha}
    (member : step ∈ steps) : IsName (step.document.fileName stage.target) :=
  Document.isName_fileName (leaves.plans step member).noSlash stage.isTarget

theorem mem_filesIn
    (leaves : stage.Leaves tree made final steps) {step : Step alpha}
    (member : step ∈ steps) : step.file ∈ tree.filesIn stage.folder stage.source := by
  rw [leaves.inputs]
  exact List.mem_map_of_mem member

theorem hasExtension
    (leaves : stage.Leaves tree made final steps) {step : Step alpha}
    (member : step ∈ steps) : nameExtension? step.name = some stage.source :=
  ((mem_fileNames stage.isSource.notEmpty).1
    (FileTree.mem_filesIn.1 (leaves.mem_filesIn member)).1).1

theorem wellNamed
    (leaves : stage.Leaves tree made final steps) (wellNamed : tree.WellNamed) :
    final.WellNamed := by
  apply wellNamed.of_sameFile
  intro place name
  by_cases written : ∃ step ∈ steps,
      place ++ [name] = stage.out.place ++ [step.document.fileName stage.target]
  · rcases written with ⟨step, member, same⟩
    have sameName := List.singleton_inj.1 (List.append_inj' same rfl).2
    exact Or.inl (sameName ▸ leaves.isName_fileName member)
  · refine Or.inr (leaves.sameFile fun step member same => ?_)
    exact written ⟨step, member, same⟩

/-! ## Running once more -/

/-- The steps can be done again, one after the other, where the input files are the
same and no folder stands in the way. -/
theorem exists_of_step
    (leaves : stage.Leaves tree made final steps)
    (has : base.HasFolder stage.folder stage.folder.place)
    (hasOut : base.HasFolder stage.out stage.out.place)
    (inputs : ∀ step ∈ steps, base.node? (stage.folder.place ++ [step.name]) =
      some (.file step.bytes))
    (notFolder : ∀ step ∈ steps,
      base.node? (stage.out.place ++ [step.document.fileName stage.target]) ≠
        some .folder)
    {done : List (Step alpha)} {step : Step alpha} (member : step ∈ steps)
    {session : Session} (updates : session.files.Updates base (stage.writes done)) :
    ∃ after, (stage.job ⟨stage.folder.join step.name, nameStem step.name⟩).Yields
        session step.value after ∧
      after.files.Updates base (stage.writes (done ++ [step])) := by
  have plans := leaves.plans step member
  have hasExtension := leaves.hasExtension member
  have isFile := (node?_input updates hasExtension).trans (inputs step member)
  have free : session.files.node?
      (stage.out.place ++ [step.document.fileName stage.target]) ≠ some .folder :=
    fun isFolder => notFolder step member (updates.folder_iff.1 isFolder)
  have safe : ∀ result, stage.plan (nameStem step.name) step.bytes = some result →
      '/' ∉ result.1.videoId.toList := by
    intro result planned
    rw [plans.planned, Option.some.injEq] at planned
    exact planned ▸ plans.noSlash
  have yields := (@yields_job_iff _ _ session _ step.value _ _
    (updates.hasFolder has) (updates.hasFolder hasOut) plans.isName isFile safe).2
      ⟨step.document, plans, free, rfl⟩
  exact ⟨_, yields, updates_put updates plans free⟩

/-- All steps can be done again where the documents' files are there already, and that
changes nothing. -/
theorem repeats_steps
    (leaves : stage.Leaves tree made final steps)
    (has : other.HasFolder stage.folder stage.folder.place)
    (hasOut : other.HasFolder stage.out stage.out.place)
    (inputs : ∀ step ∈ steps, other.node? (stage.folder.place ++ [step.name]) =
      some (.file step.bytes))
    (outputs : ∀ place content, stage.writes steps place = some content →
      other.node? place = some (.file content)) :
    (forEachFile (steps.map fun step =>
      ⟨stage.folder.join step.name, nameStem step.name⟩) stage.job).Repeats
        (steps.map Step.value) other := by
  intro session like
  have keeps := like.symm.keepsFolders
  have isInput : ∀ step ∈ steps,
      session.files.node? (stage.folder.place ++ [step.name]) =
        some (.file step.bytes) :=
    fun step member => (like _).trans (inputs step member)
  have isOutput : ∀ place content, stage.writes steps place = some content →
      session.files.node? place = some (.file content) :=
    fun place content written => (like _).trans (outputs place content written)
  have notFolder : ∀ step ∈ steps, session.files.node?
      (stage.out.place ++ [step.document.fileName stage.target]) ≠ some .folder := by
    intro step member isFolder
    rcases Option.ne_none_iff_exists'.1 (@writes_ne_none _ stage _ _ member) with
      ⟨content, written⟩
    exact absurd (isFolder.symm.trans (isOutput _ content written)) nofun
  have oneStep : ∀ (done : List (Step alpha)) (step : Step alpha),
      done ++ [step] <+: steps → ∀ between : Session,
        between.files.Updates session.files (stage.writes done) →
        ∃ after, (stage.job ⟨stage.folder.join step.name, nameStem step.name⟩).Yields
            between step.value after ∧
          after.files.Updates session.files (stage.writes (done ++ [step])) := by
    intro done step isNext between updates
    have member : step ∈ steps :=
      isNext.subset (List.mem_append_right done List.mem_cons_self)
    exact leaves.exists_of_step (has.of_folders keeps) (hasOut.of_folders keeps)
      isInput notFolder member updates
  have start : session.files.Updates session.files (stage.writes []) :=
    (Updates.refl session.files).congr fun _ => rfl
  rcases @yields_forEachFile _ _ stage.job steps
      (fun step => ⟨stage.folder.join step.name, nameStem step.name⟩) Step.value
      (fun done tree => tree.Updates session.files (stage.writes done)) oneStep
      session start with ⟨after, yields, updates⟩
  exact ⟨after, yields, (updates.like isOutput).trans like⟩

/-- A run repeats itself on every tree that has kept its input files, the files that it
left, and all folders. -/
theorem repeats
    (leaves : stage.Leaves tree made final steps) (wellNamed : tree.WellNamed)
    (keeps : final.KeepsFolders other)
    (inputs : ∀ name, nameExtension? name = some stage.source →
      tree.SameFile other (stage.folder.place ++ [name]))
    (outputs : ∀ name, IsName name →
      final.SameFile other (stage.out.place ++ [name])) :
    stage.run.Repeats (steps.map Step.value) other := by
  have keepsAll := leaves.keepsFolders.trans keeps
  have hasOut := leaves.hasFolder_out.of_folders keeps
  have notEmpty := stage.isSource.notEmpty
  have lists : (inputFiles stage.folder stage.source).Yields ⟨tree, []⟩
      (steps.map fun step => ⟨stage.folder.join step.name, nameStem step.name⟩)
      ⟨tree, []⟩ := by
    refine yields_inputFiles_iff.2 ⟨leaves.isFolder, ?_, rfl⟩
    rw [leaves.inputs, List.map_map]
    rfl
  have listsAgain := Job.Echoes.inputFiles wellNamed keepsAll notEmpty inputs _ _ _ rfl
    lists
  have creates := Job.Repeats.createFolders hasOut
    (usable_of_createFolders leaves.created)
  have writesAgain := leaves.repeats_steps
    ((hasFolder_of_isFolder leaves.isFolder).of_folders keepsAll) hasOut
    (by
      intro step member
      have isRead := (FileTree.mem_filesIn.1 (leaves.mem_filesIn member)).2
      have isFile := node?_of_read isRead
      rw [place_join _ (leaves.plans step member).isName] at isFile
      exact (inputs step.name (leaves.hasExtension member) step.bytes).2 isFile)
    (by
      intro place content written
      rcases exists_of_writes (by rw [written]; exact nofun) with ⟨step, member, rfl⟩
      have isName := leaves.isName_fileName member
      exact (outputs _ isName content).2 (leaves.updates.node?_of_some written))
  rw [run]
  exact listsAgain.2.bind (creates.bind writesAgain)

theorem footprint
    (leaves : stage.Leaves tree made final steps) (wellNamed : tree.WellNamed) :
    stage.run.Footprint (steps.map Step.value) tree final stage.folder.Encloses
      stage.out.Encloses := by
  constructor
  case alters =>
    refine ⟨leaves.keepsFolders, fun place outside => ?_⟩
    apply leaves.sameFile
    intro step member same
    rw [same] at outside
    exact outside (stage.out.encloses_append (leaves.isName_fileName member))
  case repeats =>
    intro other keeps sameRead sameLeft
    apply leaves.repeats wellNamed keeps
    · intro name hasExtension
      exact sameRead _ (stage.folder.encloses_of_extension hasExtension
        stage.isSource.notEmpty)
    · intro name isName
      exact sameLeft _ (stage.out.encloses_append isName)

end Leaves

end Transcription

end LectureQuiz
