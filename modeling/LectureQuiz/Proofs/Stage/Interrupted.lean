import LectureQuiz.Proofs.Stage.Plans

/-!
# Interrupted runs over raw transcripts

A run over raw transcripts stops at the first one whose document cannot be written. Up to
then the documents of the transcripts in front of it were written and reported, one after
the other, and nothing else was changed. A run that does not stop has done so for all.
-/

namespace LectureQuiz

open LectureQuiz.Text

variable {index : VideoIndex} {placeholders out : Path} {tree made : FileTree}
  {session after : Session} {error : Error}

/-- The run has come to the end of some of the transcripts in a folder: they were reported,
and the files of their documents were written where the folder of the documents was
created. Of documents with one id the last one is left. -/
structure FileTree.Ingested (tree : FileTree) (index : VideoIndex) (placeholders out : Path)
    (done : List (String × ByteArray)) (after : Session) : Prop where
  reports : after.progress =
    fileReports (tree.filesIn placeholders "txt").length (done.map Prod.fst)
  written : after.files.Updates (tree.createFolders out).2
    (documentWrites out "md" Document.bytes (done.map (rawDocument index)))

/-- What the run returns for one transcript. -/
def ingestedAs (index : VideoIndex) (out : Path) (file : String × ByteArray) :
    Path × VideoIndex.Resolution :=
  (out.join ((rawDocument index file).fileName "md"), (index.resolve (nameStem file.1)).2)

/-- Nothing is left of a transcript whose document cannot be written. -/
theorem fails_ingestFile_iff
    {file : String × ByteArray}
    (isRead : session.files.read (placeholders.join file.1) = .ok file.2) :
    (ingestFile index out ⟨placeholders.join file.1, nameStem file.1⟩).Fails session error
        after ↔
      ∃ fault, session.files.write (ingestedAs index out file).1
          (rawDocument index file).bytes = .error fault ∧
        error = .ofFault (ingestedAs index out file).1 fault ∧ after = session := by
  simp only [ingestFile, ingestedAs, rawDocument, Document.bytes, Document.fileName_md,
    Job.fails_bind, Job.fails_readBytes, Job.yields_readBytes, Job.fails_writeText,
    Job.not_fails_pure, and_false, exists_false, or_false, isRead]
  constructor
  · rintro (⟨_, isFault, _⟩ | ⟨_, _, ⟨isContent, rfl⟩, fault, refuses, isError, isAfter⟩)
    · cases isFault
    · rw [← Except.ok.inj isContent] at refuses isError
      exact ⟨fault, refuses, isError, isAfter⟩
  · rintro ⟨fault, refuses, isError, isAfter⟩
    exact Or.inr ⟨file.2, session, ⟨rfl, rfl⟩, fault, refuses, isError, isAfter⟩

namespace Transcription.Reaches

variable {steps : List (Step (Path × VideoIndex.Resolution))}

/-- Every step has done for its file what is told by the file alone. -/
theorem step_ingestion
    (reaches : (ingestion index placeholders out).Reaches made steps tree)
    {step : Step (Path × VideoIndex.Resolution)} (member : step ∈ steps) :
    step.document = rawDocument index step.file ∧
      step.value = ingestedAs index out step.file := by
  have planned : some (rawDocument index step.file, ingestedAs index out step.file) =
      some (step.document, step.value) := by
    have planned := (reaches.plans step member).planned
    rw [ingestion] at planned
    exact planned
  rw [Option.some.injEq, Prod.mk.injEq] at planned
  exact ⟨planned.1.symm, planned.2.symm⟩

theorem documents_ingestion
    (reaches : (ingestion index placeholders out).Reaches made steps tree) :
    steps.map Step.document = (steps.map Step.file).map (rawDocument index) := by
  rw [List.map_map]
  exact List.map_congr_left fun step member => (reaches.step_ingestion member).1

theorem values_ingestion
    (reaches : (ingestion index placeholders out).Reaches made steps tree) :
    steps.map Step.value = (steps.map Step.file).map (ingestedAs index out) := by
  rw [List.map_map]
  exact List.map_congr_left fun step member => (reaches.step_ingestion member).2

theorem updates_ingestion
    (reaches : (ingestion index placeholders out).Reaches made steps tree) :
    tree.Updates made (documentWrites out "md" Document.bytes
      ((steps.map Step.file).map (rawDocument index))) := by
  have writes : (ingestion index placeholders out).writes steps =
      documentWrites out "md" Document.bytes (steps.map Step.document) := by
    rw [Transcription.writes, ingestion]
  rw [← reaches.documents_ingestion, ← writes]
  exact reaches.updates

end Transcription.Reaches

theorem fails_ingest_iff :
    (ingest index placeholders out).Fails session error after ↔
      (ingestion index placeholders out).run.Fails session error after := by
  simp only [ingest, Transcription.run, ingestion, Job.fails_bind, Job.not_fails_pure,
    and_false, exists_false, or_false]

/-- Where the folders are there, a run comes to the end of all transcripts, or to one whose
document it cannot write. -/
theorem exists_ingested
    (wellNamed : tree.WellNamed) (isFolder : tree.isFolder placeholders = true)
    (created : tree.createFolders out = (.ok (), made)) :
    let raw := tree.filesIn placeholders "txt"
    let run := (ingestion index placeholders out).run
    (∃ after, tree.Ingested index placeholders out raw after ∧
        run.Yields ⟨tree, []⟩ (raw.map (ingestedAs index out)) after) ∨
      ∃ done next rest fault after, raw = done ++ next :: rest ∧
        tree.Ingested index placeholders out done after ∧
        after.files.write (ingestedAs index out next).1 (rawDocument index next).bytes =
          .error fault ∧
        run.Fails ⟨tree, []⟩ (.ofFault (ingestedAs index out next).1 fault) after := by
  intro raw run
  rcases @Transcription.exists_reached _ (ingestion index placeholders out) made ⟨tree, []⟩
      (safe_ingestion wellNamed) wellNamed isFolder created with
    ⟨steps, rest, reached, areInputs, reaches, reports, ending⟩
  have isRaw : raw = steps.map Step.file ++ rest := areInputs
  have ingested : tree.Ingested index placeholders out (steps.map Step.file) reached := by
    constructor
    case reports =>
      rw [show tree.filesIn placeholders "txt" = _ from areInputs, List.length_append,
        List.length_map, List.map_map]
      exact reports
    case written =>
      rw [created]
      exact reaches.updates_ingestion
  rcases ending with ⟨rfl, yields⟩ | ⟨next, others, error, after, rfl, fails, stops⟩
  · rw [List.append_nil] at isRaw
    rw [reaches.values_ingestion, ← isRaw] at yields
    exact Or.inl ⟨reached, isRaw ▸ ingested, yields⟩
  · have member : next ∈ raw := by
      rw [isRaw]
      exact List.mem_append_right _ List.mem_cons_self
    have stopsHere : (ingestFile index out
        ⟨placeholders.join next.1, nameStem next.1⟩).Fails reached error after := fails
    have isRead : reached.files.read (placeholders.join next.1) = .ok next.2 :=
      reaches.read_file wellNamed created member
    obtain ⟨fault, refuses, rfl, rfl⟩ := (fails_ingestFile_iff isRead).1 stopsHere
    exact Or.inr ⟨_, next, others, fault, after, isRaw, ingested, refuses, stops⟩

/-- How a run over raw transcripts fails: before it comes to any of them, or at the first
one whose document it cannot write. -/
inductive FileTree.IngestStops (tree : FileTree) (index : VideoIndex)
    (placeholders out : Path) : Error → Session → Prop
  | noFolder :
      tree.isFolder placeholders = false →
      tree.IngestStops index placeholders out (.missingInput placeholders) ⟨tree, []⟩
  | noOutput {made : FileTree} {fault : FileFault} :
      tree.isFolder placeholders = true →
      tree.createFolders out = (.error fault, made) →
      tree.IngestStops index placeholders out (.ofFault out fault) ⟨made, []⟩
  | atFile {done rest : List (String × ByteArray)} {next : String × ByteArray}
      {fault : FileFault} {after : Session} :
      tree.filesIn placeholders "txt" = done ++ next :: rest →
      tree.Ingested index placeholders out done after →
      after.files.write (ingestedAs index out next).1 (rawDocument index next).bytes =
        .error fault →
      tree.IngestStops index placeholders out (.ofFault (ingestedAs index out next).1 fault)
        after

theorem ingestStops_of_fails
    (wellNamed : tree.WellNamed)
    (fails : (ingest index placeholders out).Fails ⟨tree, []⟩ error after) :
    tree.IngestStops index placeholders out error after := by
  rw [fails_ingest_iff] at fails
  cases isFolder : tree.isFolder placeholders with
  | false =>
      have refuses : (inputFiles placeholders "txt").Fails ⟨tree, []⟩ _ _ :=
        fails_inputFiles_iff.2 ⟨isFolder, rfl, rfl⟩
      obtain ⟨rfl, rfl⟩ := Job.fails_unique fails (Job.fails_bind.2 (Or.inl refuses))
      exact .noFolder isFolder
  | true =>
      rcases created : tree.createFolders out with ⟨fault | ⟨⟩, made⟩
      · have lists : (inputFiles placeholders "txt").Yields ⟨tree, []⟩ _ _ :=
          yields_inputFiles_iff.2 ⟨isFolder, rfl, rfl⟩
        have refuses : (Job.createFolders out).Fails ⟨tree, []⟩ _ _ :=
          Job.fails_createFolders.2 ⟨fault, made, created, rfl, rfl⟩
        obtain ⟨rfl, rfl⟩ := Job.fails_unique fails (Job.fails_bind.2
          (Or.inr ⟨_, _, lists, Job.fails_bind.2 (Or.inl refuses)⟩))
        exact .noOutput isFolder created
      · rcases exists_ingested wellNamed isFolder created with
          ⟨_, _, yields⟩ | ⟨done, next, rest, fault, _, areInputs, ingested, refuses, stops⟩
        · exact absurd yields fails.not_yields
        · obtain ⟨rfl, rfl⟩ := Job.fails_unique fails stops
          exact .atFile areInputs ingested refuses

/-- The report of a run that has come to the end of all transcripts. -/
def ingestReport (index : VideoIndex) (out : Path) (raw : List (String × ByteArray)) :
    IngestReport :=
  ⟨raw.map fun file => out.join ((rawDocument index file).fileName "md"),
    raw.countP fun file => (index.resolve (nameStem file.1)).2 == .synthetic⟩

theorem ingested_of_yields
    {report : IngestReport} (wellNamed : tree.WellNamed)
    (yields : (ingest index placeholders out).Yields ⟨tree, []⟩ report after) :
    tree.Ingested index placeholders out (tree.filesIn placeholders "txt") after ∧
      report = ingestReport index out (tree.filesIn placeholders "txt") := by
  rcases yields_ingest_iff.1 yields with ⟨values, yieldsRun, rfl⟩
  rcases Job.yields_bind.1 yieldsRun with ⟨files, _, lists, yieldsRest⟩
  rcases yields_inputFiles_iff.1 lists with ⟨isFolder, _, rfl⟩
  rcases Job.yields_bind.1 yieldsRest with ⟨_, _, creates, _⟩
  rcases Job.yields_createFolders.1 creates with ⟨made, created, _⟩
  rcases exists_ingested wellNamed isFolder created with
    ⟨reached, ingested, runs⟩ | ⟨_, _, _, _, _, _, _, _, stops⟩
  · obtain ⟨rfl, rfl⟩ := Job.yields_unique yieldsRun runs
    refine ⟨ingested, ?_⟩
    rw [ingestReport, List.map_map, List.countP_map]
    rfl
  · exact absurd yieldsRun stops.not_yields

/-- A run over raw transcripts that fails has come to the end of the ones in front of the
one that it fails for, and one that succeeds has come to the end of all. -/
theorem ingest_writes_in_order (wellNamed : tree.WellNamed) :
    (∀ error after,
        (ingest index placeholders out).runOn tree = (.error error, after) →
          tree.IngestStops index placeholders out error after) ∧
      ∀ report after,
        (ingest index placeholders out).runOn tree = (.ok report, after) →
          tree.Ingested index placeholders out (tree.filesIn placeholders "txt") after ∧
            report = ingestReport index out (tree.filesIn placeholders "txt") :=
  ⟨fun _ _ run => ingestStops_of_fails wellNamed (Job.fails_iff_runOn.2 run),
    fun _ _ run => ingested_of_yields wellNamed (Job.yields_iff_runOn.2 run)⟩

/-- Three transcripts, and a folder in which the place of the second document is taken. -/
def blockedTarget : FileTree where
  nodes := [(["p"], .folder), (["p", "c.txt"], .file "Third".toUTF8),
    (["p", "a.txt"], .file "First".toUTF8), (["p", "b.txt"], .file "Second".toUTF8),
    (["t"], .folder), (["t", "b.md"], .folder)]
  distinct := by simp

theorem filesIn_blockedTarget :
    blockedTarget.filesIn ⟨"p"⟩ "txt" =
      [("a.txt", "First".toUTF8), ("b.txt", "Second".toUTF8), ("c.txt", "Third".toUTF8)] := by
  have place : (Path.mk "p").place = ["p"] := by
    decide +kernel
  have ⟨first, second, third⟩ : nameExtension? "a.txt" = some "txt" ∧
      nameExtension? "b.txt" = some "txt" ∧ nameExtension? "c.txt" = some "txt" := by
    decide +kernel
  have names : blockedTarget.fileNames (Path.mk "p").place "txt" =
      ["a.txt", "b.txt", "c.txt"] := by
    simp [FileTree.fileNames, FileTree.children, blockedTarget, place, first, second, third,
      List.mergeSort, List.MergeSort.Internal.splitInTwo]
  rw [FileTree.filesIn, names]
  decide +kernel

/-- What is left of a run when the transcripts are listed. -/
def ingestFiles (index : VideoIndex) (out : Path) (files : List InputFile) :
    Job IngestReport := do
  Job.createFolders out
  let written ← forEachFile files (ingestFile index out)
  return ⟨written.map Prod.fst, written.countP (·.2 == .synthetic)⟩

theorem runOn_ingest
    {files : List InputFile}
    (lists : (inputFiles placeholders "txt").Yields ⟨tree, []⟩ files ⟨tree, []⟩) :
    (ingest index placeholders out).runOn tree = (ingestFiles index out files).runOn tree := by
  rw [Job.Yields] at lists
  rw [Job.runOn, ingest, Job.run_bind, lists]
  rfl

theorem runOn_ingest_blockedTarget (out : Path) :
    (ingest .empty ⟨"p"⟩ out).runOn blockedTarget =
      (ingestFiles .empty out [⟨⟨"p/a.txt"⟩, "a"⟩, ⟨⟨"p/b.txt"⟩, "b"⟩,
        ⟨⟨"p/c.txt"⟩, "c"⟩]).runOn blockedTarget := by
  refine runOn_ingest (yields_inputFiles_iff.2 ⟨by decide +kernel, ?_, rfl⟩)
  rw [filesIn_blockedTarget]
  decide +kernel

/-- Of three transcripts the first one is done, or all in another folder. -/
theorem ingest_writes_in_order_of_blockedTarget :
    (∃ error after,
        (ingest .empty ⟨"p"⟩ ⟨"t"⟩).runOn blockedTarget = (.error error, after) ∧
          after.progress = [.file "a" 1 3] ∧
          blockedTarget.IngestStops .empty ⟨"p"⟩ ⟨"t"⟩ error after) ∧
      ∃ report after,
        (ingest .empty ⟨"p"⟩ ⟨"u"⟩).runOn blockedTarget = (.ok report, after) ∧
          report.documents = [⟨"u/a.md"⟩, ⟨"u/b.md"⟩, ⟨"u/c.md"⟩] ∧
          blockedTarget.Ingested .empty ⟨"p"⟩ ⟨"u"⟩ (blockedTarget.filesIn ⟨"p"⟩ "txt")
            after ∧
          report = ingestReport .empty ⟨"u"⟩ (blockedTarget.filesIn ⟨"p"⟩ "txt") := by
  have wellNamed : blockedTarget.WellNamed := by
    apply FileTree.wellNamed_of_nodes
    decide
  have ⟨failed, isFirst, succeeded⟩ :
      ((ingest .empty ⟨"p"⟩ ⟨"t"⟩).runOn blockedTarget).1.isOk = false ∧
        ((ingest .empty ⟨"p"⟩ ⟨"t"⟩).runOn blockedTarget).2.progress = [.file "a" 1 3] ∧
        ((ingest .empty ⟨"p"⟩ ⟨"u"⟩).runOn blockedTarget).1.toOption.map
          IngestReport.documents = some [⟨"u/a.md"⟩, ⟨"u/b.md"⟩, ⟨"u/c.md"⟩] := by
    rw [runOn_ingest_blockedTarget, runOn_ingest_blockedTarget]
    decide +kernel
  obtain ⟨error, failedRun⟩ := Job.exists_of_not_isOk failed
  obtain ⟨report, isReport, documents⟩ := Option.map_eq_some_iff.1 succeeded
  have run := Job.runOn_of_toOption isReport
  have stops := (ingest_writes_in_order wellNamed).1 _ _ failedRun
  have ⟨ingested, same⟩ := (ingest_writes_in_order wellNamed).2 _ _ run
  exact ⟨⟨error, _, failedRun, isFirst, stops⟩, report, _, run, documents, ingested, same⟩

end LectureQuiz
