import LectureQuiz.Proofs.FileTree.Way
import LectureQuiz.Proofs.Stage.Plans

/-!
# Outputs of stages stay in their folder

A stage changes nothing but the files that it reports, directly in the folder of its
outputs, and folders that it creates on the way there. The next stage lists what it has
written. For segments this rests on the headers of the documents: an id with a slash leads
to another folder.
-/

namespace LectureQuiz

open LectureQuiz.Text

namespace FileTree

/-- Each path names a file that lies directly in the folder and can be read, and nothing
but these files is different in the second tree, save for folders that were created on
the way to the folder. -/
def WritesOnly (tree other : FileTree) (folder : Path) (paths : List Path) : Prop :=
  ∃ names : List String, paths = names.map folder.join ∧
    (∀ name ∈ names, IsName name ∧
      ∃ content, other.read (folder.join name) = .ok content) ∧
    ∀ place, (∀ name ∈ names, place ≠ folder.place ++ [name]) →
      other.node? place = tree.node? place ∨ tree.CreatedOnWay other folder place

/-- The path is one of the files that a stage finds in the folder. -/
def ListsInput (tree : FileTree) (folder : Path) (extension : String) (path : Path) :
    Prop :=
  ∃ files, (inputFiles folder extension).runOn tree = (.ok files, ⟨tree, []⟩) ∧
    ∃ file ∈ files, file.path = path

end FileTree

namespace Transcription.Leaves

open FileTree

variable {alpha : Type} {stage : Transcription alpha} {tree made final : FileTree}
  {steps : List (Step alpha)}

/-- The file of every document can be read. -/
theorem exists_read
    (leaves : stage.Leaves tree made final steps) {step : Step alpha}
    (member : step ∈ steps) :
    ∃ content,
      final.read (stage.out.join (step.document.fileName stage.target)) = .ok content := by
  rcases Option.ne_none_iff_exists'.1 (@writes_ne_none _ stage _ _ member) with
    ⟨content, written⟩
  have isFile := leaves.updates.node?_of_some written
  have writable := (leaves.plans step member).writable
  have isName := leaves.isName_fileName member
  exact ⟨content, (leaves.hasFolder_out.read_join isName).2 ⟨writable, isFile⟩⟩

/-- Where no document's file is, there is what was there before or a created folder. -/
theorem elsewhere
    (leaves : stage.Leaves tree made final steps) {place : Location}
    (apart : ∀ step ∈ steps,
      place ≠ stage.out.place ++ [step.document.fileName stage.target]) :
    final.node? place = tree.node? place ∨ tree.CreatedOnWay final stage.out place := by
  have unwritten : stage.writes steps place = none := by
    refine Decidable.not_not.1 fun written => ?_
    rcases exists_of_writes written with ⟨step, member, isPlace⟩
    exact apart step member isPlace
  have same := leaves.updates.node?_of_none unwritten
  have created := tree.createFolders_elsewhere stage.out place
  rw [leaves.created] at created
  rw [CreatedOnWay, same]
  exact created

/-- A stage that reports the paths of its files writes only what it reports. -/
theorem writesOnly
    (leaves : stage.Leaves tree made final steps) {report : alpha → Path}
    (reports : ∀ step ∈ steps, report step.value =
      stage.out.join (step.document.fileName stage.target)) :
    tree.WritesOnly final stage.out ((steps.map Step.value).map report) := by
  refine ⟨steps.map fun step => step.document.fileName stage.target, ?_, ?_, ?_⟩
  · rw [List.map_map, List.map_map]
    exact List.map_congr_left reports
  · intro name isNamed
    rcases List.mem_map.1 isNamed with ⟨step, member, rfl⟩
    exact ⟨leaves.isName_fileName member, leaves.exists_read member⟩
  · intro place apart
    apply leaves.elsewhere
    exact fun step member => apart _ (List.mem_map_of_mem member)

/-- The file of a document that has an id is an input of the next stage. -/
theorem listsInput
    (leaves : stage.Leaves tree made final steps) (named : stage.out.text ≠ "")
    {step : Step alpha} (member : step ∈ steps)
    (hasId : step.document.videoId ≠ "") :
    final.ListsInput stage.out stage.target
      (stage.out.join (step.document.fileName stage.target)) := by
  have checked := (usable_of_createFolders leaves.created).resolve_left named
  have isFolder := leaves.hasFolder_out.isFolder checked
  have hasExtension :
      nameExtension? (step.document.fileName stage.target) = some stage.target := by
    rw [step.document.nameExtension?_fileName stage.isTarget, if_neg hasId]
  rcases leaves.exists_read member with ⟨content, isRead⟩
  have isFile := node?_of_read isRead
  rw [place_join _ (leaves.isName_fileName member)] at isFile
  have listed := (mem_fileNames stage.isTarget.notEmpty).2 ⟨hasExtension, content, isFile⟩
  refine ⟨_, yields_inputFiles_iff.2 ⟨isFolder, rfl, rfl⟩, ?_⟩
  exact ⟨_, List.mem_map_of_mem (FileTree.mem_filesIn.2 ⟨listed, isRead⟩), rfl⟩

end Transcription.Leaves

variable {tree : FileTree} {out : Path} {after : Session}

/-- The documents of raw transcripts are all that changes, and those that have an id are
listed in their folder. -/
theorem ingest_within
    {index : VideoIndex} {placeholders : Path} {report : IngestReport}
    (wellNamed : tree.WellNamed)
    (run : (ingest index placeholders out).runOn tree = (.ok report, after)) :
    tree.WritesOnly after.files out report.documents ∧
      (out.text ≠ "" → ∀ path ∈ report.documents, path ≠ out.join ".md" →
        after.files.ListsInput out "md" path) := by
  rcases yields_ingest_iff.1 (Job.yields_iff_runOn.2 run) with ⟨values, yields, rfl⟩
  rcases Transcription.exists_leaves (safe_ingestion wellNamed) wellNamed yields with
    ⟨made, steps, leaves, rfl⟩
  have reports : ∀ step ∈ steps,
      step.value.1 = out.join (step.document.fileName "md") := by
    intro step member
    have planned := (leaves.plans step member).planned
    rw [ingestion, Option.some.injEq, Prod.mk.injEq] at planned
    rw [← planned.1, ← planned.2]
  refine ⟨leaves.writesOnly reports, fun named path reported isOther => ?_⟩
  rw [List.map_map] at reported
  rcases List.mem_map.1 reported with ⟨step, member, rfl⟩
  rw [Function.comp_apply, reports step member] at isOther ⊢
  refine leaves.listsInput named member fun noId => isOther ?_
  rw [Document.fileName, noId]
  rfl

/-- The streams of documents are all that changes, and they are listed in their folder. -/
theorem segment_within
    {bounds : Window.Bounds} {transcripts : Path} {report : SegmentReport}
    (wellNamed : tree.WellNamed) (safe : tree.SafeHeaders transcripts)
    (run : (segment bounds transcripts out).runOn tree = (.ok report, after)) :
    tree.WritesOnly after.files out report.streams ∧
      (out.text ≠ "" → ∀ path ∈ report.streams,
        after.files.ListsInput out "jsonl" path) := by
  rcases yields_segment_iff.1 (Job.yields_iff_runOn.2 run) with ⟨values, yields, rfl⟩
  rcases Transcription.exists_leaves (safe_segmentation wellNamed safe) wellNamed yields
    with ⟨made, steps, leaves, rfl⟩
  have planned : ∀ step ∈ steps, ∃ text,
      step.document = Document.ofFile text (nameStem step.name) ∧
        step.value.1 = out.join (step.document.fileName "jsonl") := by
    intro step member
    rcases segmentPlan_eq_some.1 (leaves.plans step member).planned with
      ⟨text, segments, _, _, same⟩
    rw [Prod.mk.injEq] at same
    exact ⟨text, same.1, by rw [same.2, same.1]⟩
  have reports : ∀ step ∈ steps,
      step.value.1 = out.join (step.document.fileName "jsonl") := by
    intro step member
    rcases planned step member with ⟨_, _, isPath⟩
    exact isPath
  refine ⟨leaves.writesOnly reports, fun named path reported => ?_⟩
  rw [List.map_map] at reported
  rcases List.mem_map.1 reported with ⟨step, member, rfl⟩
  rw [Function.comp_apply, reports step member]
  rcases planned step member with ⟨text, isDocument, _⟩
  have hasStem := (splitName_eq_some (Prod.ext rfl (leaves.hasExtension member))).1
  refine leaves.listsInput named member ?_
  rw [isDocument]
  exact (Document.Made.ofFile text hasStem).videoId_ne_empty

/-- Whatever the index is, documents and segments are written directly in their folder and
nothing else changes, and the next stage lists them, unless it is told no folder. -/
theorem outputs_within {folder : Path} (wellNamed : tree.WellNamed) :
    (∀ index report, (ingest index folder out).runOn tree = (.ok report, after) →
      tree.WritesOnly after.files out report.documents ∧
        (out.text ≠ "" → ∀ path ∈ report.documents, path ≠ out.join ".md" →
          after.files.ListsInput out "md" path)) ∧
      ∀ bounds report, tree.SafeHeaders folder →
        (segment bounds folder out).runOn tree = (.ok report, after) →
          tree.WritesOnly after.files out report.streams ∧
            (out.text ≠ "" → ∀ path ∈ report.streams,
              after.files.ListsInput out "jsonl" path) :=
  ⟨fun _ _ run => ingest_within wellNamed run,
    fun _ _ safe run => segment_within wellNamed safe run⟩

/-- A document whose header gives the id. -/
def headedDocument (videoId : String) : String :=
  "---\n\x7b\"video_id\":\"" ++ videoId ++ "\"\x7d\n---\n\nWhat is a type?\n"

/-- A folder `p` with a raw transcript and a document whose header gives the id. -/
def mixedFolder (videoId : String) : FileTree where
  nodes :=
    [(["p"], .folder), (["p", "Intro.txt"], .file "What is a type?\n".toUTF8),
      (["p", "a.md"], .file (headedDocument videoId).toUTF8)]
  distinct := by simp

theorem wellNamed_mixedFolder (videoId : String) : (mixedFolder videoId).WellNamed := by
  apply FileTree.wellNamed_of_nodes
  change ∀ place ∈ [["p"], ["p", "Intro.txt"], ["p", "a.md"]],
    ∀ name ∈ place.getLast?, IsName name
  decide

theorem safeHeaders_mixedFolder : (mixedFolder "types").SafeHeaders ⟨"p"⟩ := by
  intro name bytes text header hasExtension isFile isText parsed
  have noSlash : ∀ header ∈ (ParsedDocument.parse (headedDocument "types")).header,
      '/' ∉ header.videoId.toList := by
    decide +kernel
  have member := FileTree.mem_nodes_of_isFile isFile
  simp only [mixedFolder, List.mem_cons, Prod.mk.injEq, Node.file.injEq,
    List.not_mem_nil, or_false, reduceCtorEq, and_false, false_or] at member
  rcases member with ⟨place, _⟩ | ⟨_, rfl⟩
  · have isTranscript : name = "Intro.txt" := (List.cons.inj (List.cons.inj place).2).1
    rw [isTranscript] at hasExtension
    exact absurd hasExtension (by decide)
  · rw [text?_toUTF8, Option.some.injEq] at isText
    rw [← isText] at parsed
    exact noSlash header parsed

theorem outputs_within_of_mixedFolder :
    (mixedFolder "types").WellNamed ∧ (mixedFolder "types").SafeHeaders ⟨"p"⟩ ∧
      (∃ after, (ingest .empty ⟨"p"⟩ ⟨"t"⟩).runOn (mixedFolder "types") =
          (.ok ⟨[⟨"t/intro.md"⟩], 1⟩, after) ∧
        (mixedFolder "types").WritesOnly after.files ⟨"t"⟩ [⟨"t/intro.md"⟩] ∧
        after.files.ListsInput ⟨"t"⟩ "md" ⟨"t/intro.md"⟩) ∧
      ∃ after, (segment {} ⟨"p"⟩ ⟨"s"⟩).runOn (mixedFolder "types") =
          (.ok ⟨[⟨"s/types.jsonl"⟩], 1⟩, after) ∧
        (mixedFolder "types").WritesOnly after.files ⟨"s"⟩ [⟨"s/types.jsonl"⟩] ∧
        after.files.ListsInput ⟨"s"⟩ "jsonl" ⟨"s/types.jsonl"⟩ := by
  have wellNamed := wellNamed_mixedFolder "types"
  have safe := safeHeaders_mixedFolder
  have ingested : ((ingest .empty ⟨"p"⟩ ⟨"t"⟩).runOn (mixedFolder "types")).1.toOption =
      some ⟨[⟨"t/intro.md"⟩], 1⟩ := by
    decide +kernel
  have segmented : ((segment {} ⟨"p"⟩ ⟨"s"⟩).runOn (mixedFolder "types")).1.toOption =
      some ⟨[⟨"s/types.jsonl"⟩], 1⟩ := by
    decide +kernel
  have ingestRun := Job.runOn_of_toOption ingested
  have segmentRun := Job.runOn_of_toOption segmented
  have ingestWithin := (outputs_within wellNamed).1 _ _ ingestRun
  have segmentWithin := (outputs_within wellNamed).2 _ _ safe segmentRun
  refine ⟨wellNamed, safe, ⟨_, ingestRun, ingestWithin.1, ?_⟩,
    ⟨_, segmentRun, segmentWithin.1, ?_⟩⟩
  · exact ingestWithin.2 (by decide) _ (List.mem_singleton_self _) (by decide +kernel)
  · exact segmentWithin.2 (by decide) _ (List.mem_singleton_self _)

/-- The id in a header may lead out of the folder of the streams, where the next stage does
not list its file, and the empty path is no folder to the next stage. -/
theorem not_outputs_within :
    (∃ after content, (segment {} ⟨"p"⟩ ⟨"s"⟩).runOn (mixedFolder "../types") =
        (.ok ⟨[⟨"s/../types.jsonl"⟩], 1⟩, after) ∧
      (mixedFolder "../types").node? ["types.jsonl"] = none ∧
      after.files.node? ["types.jsonl"] = some (.file content) ∧
      ¬after.files.ListsInput ⟨"s"⟩ "jsonl" ⟨"s/../types.jsonl"⟩) ∧
      ∃ after, (ingest .empty ⟨"p"⟩ ⟨""⟩).runOn (mixedFolder "types") =
          (.ok ⟨[⟨"intro.md"⟩], 1⟩, after) ∧
        ¬after.files.ListsInput ⟨""⟩ "md" ⟨"intro.md"⟩ := by
  have segmented :
      ((segment {} ⟨"p"⟩ ⟨"s"⟩).runOn (mixedFolder "../types")).1.toOption =
        some ⟨[⟨"s/../types.jsonl"⟩], 1⟩ := by
    decide +kernel
  have ingested : ((ingest .empty ⟨"p"⟩ ⟨""⟩).runOn (mixedFolder "types")).1.toOption =
      some ⟨[⟨"intro.md"⟩], 1⟩ := by
    decide +kernel
  obtain ⟨isWritten, listed⟩ :
      (((segment {} ⟨"p"⟩ ⟨"s"⟩).runOn (mixedFolder "../types")).2.files.read
        ⟨"types.jsonl"⟩).toOption.isSome = true ∧
      ((inputFiles ⟨"s"⟩ "jsonl").runOn ((segment {} ⟨"p"⟩ ⟨"s"⟩).runOn
        (mixedFolder "../types")).2.files).1.toOption.map List.length = some 0 := by
    decide +kernel
  have run := Job.runOn_of_toOption segmented
  generalize ((segment {} ⟨"p"⟩ ⟨"s"⟩).runOn (mixedFolder "../types")).2 = after
    at isWritten listed run
  rcases Option.isSome_iff_exists.1 isWritten with ⟨content, isRead⟩
  have isFile := FileTree.node?_of_toOption_read isRead
  refine ⟨⟨after, content, run, by rfl, isFile, fun lists => ?_⟩,
    ⟨_, Job.runOn_of_toOption ingested, fun lists => ?_⟩⟩
  · rcases lists with ⟨files, lists, file, member, _⟩
    rw [lists] at listed
    have isNil := List.length_eq_zero_iff.1 (Option.some.inj listed)
    rw [isNil] at member
    exact absurd member List.not_mem_nil
  · rcases lists with ⟨files, lists, _⟩
    have isFolder := (yields_inputFiles_iff.1 (Job.yields_iff_runOn.2 lists)).1
    have noFolder (tree : FileTree) : tree.isFolder ⟨""⟩ = false := by rfl
    rw [noFolder] at isFolder
    exact absurd isFolder nofun

end LectureQuiz
