import Mathlib.Algebra.Order.BigOperators.Group.List
import Mathlib.Data.List.Dedup
import LectureQuiz.Proofs.Records
import LectureQuiz.Proofs.Stage.Containment
import LectureQuiz.Proofs.Stage.Generate

/-!
# Streams of documents

The report of a run over documents names a stream for each document and counts all
segments. Streams are named by ids: of several documents with one id the stream of the
last one is left, and the report still counts the segments of all of them.
-/

namespace LectureQuiz

open LectureQuiz.Text

section

variable {size : Document → Nat}

theorem sum_lastOccurrences_le (documents : List Document) :
    ((lastOccurrences documents).map size).sum ≤ (documents.map size).sum := by
  induction documents with
  | nil => exact le_rfl
  | cons document rest inductionHypothesis =>
      rw [lastOccurrences, List.map_cons, List.sum_cons]
      split
      · exact inductionHypothesis.trans (Nat.le_add_left _ _)
      · rw [List.map_cons, List.sum_cons]
        exact Nat.add_le_add_left inductionHypothesis _

/-- The last documents with their ids have the sum of all documents when no other
document adds to it. -/
theorem sum_lastOccurrences_eq_iff {documents : List Document} :
    (documents.map size).sum = ((lastOccurrences documents).map size).sum ↔
      documents.Pairwise fun document later =>
        later.videoId = document.videoId → size document = 0 := by
  induction documents with
  | nil => simp [lastOccurrences]
  | cons document rest inductionHypothesis =>
      have bound := @sum_lastOccurrences_le size rest
      rw [List.pairwise_cons, ← inductionHypothesis, lastOccurrences, List.map_cons,
        List.sum_cons]
      split
      · rename_i replaced
        obtain ⟨other, member, same⟩ := List.any_eq_true.1 replaced
        constructor
        · intro equal
          exact ⟨fun _ _ _ => by omega, by omega⟩
        · intro both
          have isEmpty := both.1 other member (beq_iff_eq.1 same)
          omega
      · rename_i kept
        rw [List.map_cons, List.sum_cons, Nat.add_left_cancel_iff]
        refine (and_iff_right fun later member same => absurd ?_ kept).symm
        exact List.any_eq_true.2 ⟨later, member, beq_iff_eq.2 same⟩

theorem mem_of_mem_lastOccurrences
    {documents : List Document} {document : Document}
    (isLast : document ∈ lastOccurrences documents) : document ∈ documents :=
  List.mem_reverse.1 (List.mem_of_find?_eq_some (mem_lastOccurrences.1 isLast))

/-- Names that tell ids apart stand for the last documents with their ids. -/
theorem perm_dedup_map
    {alpha : Type} [DecidableEq alpha] {name : Document → alpha} {documents : List Document}
    (tells : ∀ first ∈ documents, ∀ second ∈ documents,
      (name first = name second ↔ first.videoId = second.videoId)) :
    (documents.map name).dedup.Perm ((lastOccurrences documents).map name) := by
  have distinct : ((lastOccurrences documents).map name).Nodup := by
    refine List.pairwise_map.2
      ((List.pairwise_map.1 (nodup_lastOccurrences documents)).imp_of_mem ?_)
    intro first second isFirst isSecond apart same
    exact apart ((tells first (mem_of_mem_lastOccurrences isFirst) second
      (mem_of_mem_lastOccurrences isSecond)).1 same)
  refine (List.perm_ext_iff_of_nodup (List.nodup_dedup _) distinct).2 fun other => ?_
  rw [List.mem_dedup, List.mem_map, List.mem_map]
  constructor
  · rintro ⟨document, member, rfl⟩
    cases found : latest? documents document.videoId with
    | none => exact absurd rfl (latest?_eq_none_iff.1 found document member)
    | some last =>
        have same := videoId_of_latest? found
        have isLast : last ∈ lastOccurrences documents :=
          mem_lastOccurrences.2 (same ▸ found)
        exact ⟨last, isLast,
          (tells last (mem_of_mem_lastOccurrences isLast) document member).2 same⟩
  · rintro ⟨document, isLast, rfl⟩
    exact ⟨document, mem_of_mem_lastOccurrences isLast, rfl⟩

end

/-- The document in a file, when its content is a text. -/
def documentIn? (file : String × ByteArray) : Option Document :=
  (text? file.2).map fun text => Document.ofFile text (nameStem file.1)

/-- The stream of a document. -/
def Document.streamPath (out : Path) (document : Document) : Path :=
  out.join s!"{document.videoId}.jsonl"

namespace FileTree

/-- What a file holds as segments, when it can be read as a text. -/
def streamAt? (tree : FileTree) (path : Path) : Option (Records Segment) :=
  (tree.read path).toOption.bind fun content => (text? content).map Records.parse

/-- The number of segments in some files, each of which is counted once. -/
def countSegments (tree : FileTree) (streams : List Path) : Nat :=
  (streams.dedup.map fun path =>
    ((tree.streamAt? path).map fun stream => stream.records.length).getD 0).sum

/-- What a run leaves of some documents, and what it reports: a stream for each of them,
and the number of their segments. The stream of an id holds the segments of the last
document that has it, and nothing else. -/
structure Segmented (tree final : FileTree) (bounds : Window.Bounds)
    (transcripts out : Path) (documents : List Document) (report : SegmentReport) :
    Prop where
  areDocuments : (tree.filesIn transcripts "md").map documentIn? = documents.map some
  cut : ∀ document ∈ documents,
    document.segments? bounds = some (document.segments bounds)
  streams : report.streams = documents.map (Document.streamPath out)
  segments : report.segments =
    (documents.map fun document => (document.segments bounds).length).sum
  stored : ∀ document ∈ documents, ∃ last,
    latest? documents document.videoId = some last ∧
      final.streamAt? (document.streamPath out) = some ⟨last.segments bounds, 0⟩

end FileTree

variable {tree made final : FileTree} {bounds : Window.Bounds} {transcripts out : Path}
  {documents : List Document} {report : SegmentReport} {after : Session}

namespace Document

theorem streamPath_eq (document : Document) :
    document.streamPath out = out.join (document.fileName "jsonl") := by
  rw [streamPath, fileName_jsonl]

theorem place_streamPath
    {document : Document} (noSlash : '/' ∉ document.videoId.toList) :
    (document.streamPath out).place = out.place ++ [document.fileName "jsonl"] := by
  rw [streamPath_eq]
  exact FileTree.place_join out (document.isName_fileName noSlash isExtension_jsonl)

/-- Streams of different ids have different places. -/
theorem place_streamPath_eq_iff
    {first second : Document} (noSlash : '/' ∉ first.videoId.toList)
    (noSlashToo : '/' ∉ second.videoId.toList) :
    (first.streamPath out).place = (second.streamPath out).place ↔
      first.videoId = second.videoId := by
  rw [place_streamPath noSlash, place_streamPath noSlashToo, List.append_cancel_left_eq,
    List.singleton_inj, fileName_inj]

theorem streamPath_eq_iff
    {first second : Document} (noSlash : '/' ∉ first.videoId.toList)
    (noSlashToo : '/' ∉ second.videoId.toList) :
    first.streamPath out = second.streamPath out ↔ first.videoId = second.videoId := by
  constructor
  · exact fun same =>
      (place_streamPath_eq_iff noSlash noSlashToo).1 (congrArg Path.place same)
  · intro same
    rw [streamPath, streamPath, same]

end Document

namespace FileTree.Segmented

theorem stored_of_lastOccurrence
    (segmented : tree.Segmented final bounds transcripts out documents report)
    {document : Document} (isLast : document ∈ lastOccurrences documents) :
    final.streamAt? (document.streamPath out) = some ⟨document.segments bounds, 0⟩ := by
  obtain ⟨last, isLatest, isStored⟩ :=
    segmented.stored document (mem_of_mem_lastOccurrences isLast)
  obtain rfl := Option.some.inj ((mem_lastOccurrences.1 isLast).symm.trans isLatest)
  exact isStored

/-- The streams hold the segments of the last documents with their ids. -/
theorem countSegments_eq
    (segmented : tree.Segmented final bounds transcripts out documents report)
    (noSlash : ∀ document ∈ documents, '/' ∉ document.videoId.toList) :
    final.countSegments report.streams =
      ((lastOccurrences documents).map fun document =>
        (document.segments bounds).length).sum := by
  have streams : (documents.map (Document.streamPath out)).dedup.Perm
      ((lastOccurrences documents).map (Document.streamPath out)) :=
    perm_dedup_map fun first isFirst second isSecond =>
      Document.streamPath_eq_iff (noSlash first isFirst) (noSlash second isSecond)
  rw [countSegments, segmented.streams, (streams.map _).sum_eq, List.map_map]
  refine congrArg List.sum (List.map_congr_left fun document isLast => ?_)
  rw [Function.comp_apply, segmented.stored_of_lastOccurrence isLast]
  rfl

theorem nodup_streams_iff
    (segmented : tree.Segmented final bounds transcripts out documents report)
    (noSlash : ∀ document ∈ documents, '/' ∉ document.videoId.toList) :
    (report.streams.map Path.place).Nodup ↔ (documents.map Document.videoId).Nodup := by
  rw [segmented.streams, List.map_map, List.Nodup, List.Nodup, List.pairwise_map,
    List.pairwise_map]
  have tells {first second : Document} (isFirst : first ∈ documents)
      (isSecond : second ∈ documents) :=
    @Document.place_streamPath_eq_iff out first second (noSlash first isFirst)
      (noSlash second isSecond)
  constructor
  · exact fun apart => apart.imp_of_mem fun isFirst isSecond different same =>
      different ((tells isFirst isSecond).2 same)
  · exact fun apart => apart.imp_of_mem fun isFirst isSecond different same =>
      different ((tells isFirst isSecond).1 same)

end FileTree.Segmented

/-- The documents of the steps of a run are what the files hold. -/
theorem Transcription.Leaves.segmented
    {steps : List (Step (Path × Nat))}
    (leaves : (segmentation bounds transcripts out).Leaves tree made final steps) :
    tree.Segmented final bounds transcripts out (steps.map Step.document)
      ⟨(steps.map Step.value).map Prod.fst,
        ((steps.map Step.value).map Prod.snd).foldl (· + ·) 0⟩ := by
  have planned (step : Step (Path × Nat)) (member : step ∈ steps) :
      documentIn? step.file = some step.document ∧
        step.document.segments? bounds = some (step.document.segments bounds) ∧
        step.value = (step.document.streamPath out,
          (step.document.segments bounds).length) := by
    obtain ⟨text, segments, isText, areSegments, same⟩ :=
      segmentPlan_eq_some.1 (leaves.plans step member).planned
    obtain ⟨isDocument, isValue⟩ := Prod.mk.inj same
    rw [← isDocument] at areSegments isValue
    have areAll : step.document.segments bounds = segments := by
      rw [Document.segments, areSegments, Option.getD_some]
    refine ⟨?_, areAll ▸ areSegments, ?_⟩
    · rw [documentIn?, Step.file, isText, Option.map_some, isDocument]
    · rw [isValue, areAll, Document.streamPath_eq]
  have values : steps.map Step.value = (steps.map Step.document).map fun document =>
      (document.streamPath out, (document.segments bounds).length) := by
    rw [List.map_map]
    exact List.map_congr_left fun step member => (planned step member).2.2
  constructor
  case areDocuments =>
    have inputs : tree.filesIn transcripts "md" = steps.map Step.file := leaves.inputs
    rw [inputs, List.map_map, List.map_map]
    exact List.map_congr_left fun step member => (planned step member).1
  case cut =>
    intro document member
    obtain ⟨step, isStep, rfl⟩ := List.mem_map.1 member
    exact (planned step isStep).2.1
  case streams =>
    rw [values, List.map_map]
    rfl
  case segments =>
    dsimp only
    rw [← List.sum_eq_foldl, values, List.map_map]
    rfl
  case stored =>
    intro document member
    obtain ⟨step, isStep, rfl⟩ := List.mem_map.1 member
    cases found : latest? (steps.map Step.document) step.document.videoId with
    | none => exact absurd rfl (latest?_eq_none_iff.1 found step.document member)
    | some last =>
        refine ⟨last, rfl, ?_⟩
        have written : (segmentation bounds transcripts out).writes steps
            (out.place ++ [step.document.fileName "jsonl"]) =
              some (last.stream bounds) := by
          rw [Transcription.writes, segmentation, documentWrites_fileName, found,
            Option.map_some]
        have isRead := (leaves.hasFolder_out.read_join (leaves.isName_fileName isStep)).2
          ⟨(leaves.plans step isStep).writable, leaves.updates.node?_of_some written⟩
        have isStream : final.read (step.document.streamPath out) =
            .ok (last.stream bounds) := by
          rw [Document.streamPath_eq]
          exact isRead
        rw [FileTree.streamAt?, isStream, Except.toOption, Option.bind_some,
          Document.stream, text?_toUTF8, Option.map_some, Records.parse_render]

/-- After a run over documents the report tells what is stored: there is a stream for each
document, and it holds the segments of the last document with its id. The streams are
different files when the ids are different, and they hold as many segments as the report
says when every document that a later one replaces has none. -/
theorem segment_reports
    (wellNamed : tree.WellNamed) (safe : tree.SafeHeaders transcripts)
    (run : (segment bounds transcripts out).runOn tree = (.ok report, after)) :
    ∃ documents, tree.Segmented after.files bounds transcripts out documents report ∧
      ((report.streams.map Path.place).Nodup ↔
        (documents.map Document.videoId).Nodup) ∧
      (report.segments = after.files.countSegments report.streams ↔
        documents.Pairwise fun document later =>
          later.videoId = document.videoId → document.segments bounds = []) := by
  obtain ⟨values, yields, rfl⟩ := yields_segment_iff.1 (Job.yields_iff_runOn.2 run)
  obtain ⟨made, steps, leaves, rfl⟩ :=
    Transcription.exists_leaves (safe_segmentation wellNamed safe) wellNamed yields
  have segmented := leaves.segmented
  have noSlash : ∀ document ∈ steps.map Step.document,
      '/' ∉ document.videoId.toList := by
    intro document member
    obtain ⟨step, isStep, rfl⟩ := List.mem_map.1 member
    exact (leaves.plans step isStep).noSlash
  refine ⟨_, segmented, segmented.nodup_streams_iff noSlash, ?_⟩
  rw [segmented.countSegments_eq noSlash, segmented.segments, sum_lastOccurrences_eq_iff]
  simp only [List.length_eq_zero_iff]

/-! ## Two documents -/

/-- A folder `p` with two documents whose headers give the ids. -/
def pairFolder (first second : String) : FileTree where
  nodes :=
    [(["p"], .folder), (["p", "a.md"], .file (headedDocument first).toUTF8),
      (["p", "b.md"], .file (headedDocument second).toUTF8)]
  distinct := by simp

theorem wellNamed_pairFolder (first second : String) :
    (pairFolder first second).WellNamed := by
  apply FileTree.wellNamed_of_nodes
  change ∀ place ∈ [["p"], ["p", "a.md"], ["p", "b.md"]],
    ∀ name ∈ place.getLast?, IsName name
  decide

theorem safeHeaders_pairFolder
    {first second : String}
    (noSlash : ∀ videoId ∈ [first, second],
      ∀ header ∈ (ParsedDocument.parse (headedDocument videoId)).header,
        '/' ∉ header.videoId.toList) :
    (pairFolder first second).SafeHeaders ⟨"p"⟩ := by
  intro name bytes text header hasExtension isFile isText parsed
  have member := FileTree.mem_nodes_of_isFile isFile
  simp only [pairFolder, List.mem_cons, Prod.mk.injEq, Node.file.injEq,
    List.not_mem_nil, or_false, reduceCtorEq, and_false, false_or] at member
  rcases member with ⟨_, rfl⟩ | ⟨_, rfl⟩ <;>
    rw [text?_toUTF8, Option.some.injEq] at isText <;>
    rw [← isText] at parsed
  · exact noSlash first (by simp) header parsed
  · exact noSlash second (by simp) header parsed

theorem filesIn_pairFolder (first second : String) :
    (pairFolder first second).filesIn ⟨"p"⟩ "md" =
      [("a.md", (headedDocument first).toUTF8), ("b.md", (headedDocument second).toUTF8)] := by
  have place : (Path.mk "p").place = ["p"] := by
    decide +kernel
  obtain ⟨isFirst, isSecond⟩ : nameExtension? "a.md" = some "md" ∧
      nameExtension? "b.md" = some "md" := by
    decide +kernel
  have names : (pairFolder first second).fileNames (Path.mk "p").place "md" =
      ["a.md", "b.md"] := by
    simp [FileTree.fileNames, FileTree.children, pairFolder, place, isFirst, isSecond,
      List.mergeSort, List.MergeSort.Internal.splitInTwo]
  rw [FileTree.filesIn, names]
  rfl

/-- What is left of a run when the documents are listed. -/
def segmentFiles (bounds : Window.Bounds) (out : Path) (files : List InputFile) :
    Job SegmentReport := do
  Job.createFolders out
  let written ← forEachFile files (segmentFile bounds out)
  return ⟨written.map Prod.fst, (written.map Prod.snd).foldl (· + ·) 0⟩

theorem runOn_segment_pairFolder (first second : String) :
    (segment {} ⟨"p"⟩ ⟨"s"⟩).runOn (pairFolder first second) =
      (segmentFiles {} ⟨"s"⟩ [⟨⟨"p/a.md"⟩, "a"⟩, ⟨⟨"p/b.md"⟩, "b"⟩]).runOn
        (pairFolder first second) := by
  have lists : (inputFiles ⟨"p"⟩ "md").Yields ⟨pairFolder first second, []⟩
      [⟨⟨"p/a.md"⟩, "a"⟩, ⟨⟨"p/b.md"⟩, "b"⟩] ⟨pairFolder first second, []⟩ := by
    refine yields_inputFiles_iff.2 ⟨rfl, ?_, rfl⟩
    rw [filesIn_pairFolder, List.map_cons, List.map_singleton]
    dsimp only
    decide +kernel
  rw [Job.Yields] at lists
  rw [Job.runOn, segment, Job.run_bind, lists]
  rfl

/-- Two documents with different ids have two streams. -/
theorem segment_reports_of_pairFolder :
    (pairFolder "types" "kinds").WellNamed ∧
      (pairFolder "types" "kinds").SafeHeaders ⟨"p"⟩ ∧
      ∃ report after,
        (segment {} ⟨"p"⟩ ⟨"s"⟩).runOn (pairFolder "types" "kinds") =
          (.ok report, after) ∧
        report = ⟨[⟨"s/types.jsonl"⟩, ⟨"s/kinds.jsonl"⟩], 2⟩ ∧
        ∃ documents,
          (pairFolder "types" "kinds").Segmented after.files {} ⟨"p"⟩ ⟨"s"⟩ documents
            report ∧
          ((report.streams.map Path.place).Nodup ↔
            (documents.map Document.videoId).Nodup) ∧
          (report.segments = after.files.countSegments report.streams ↔
            documents.Pairwise fun document later =>
              later.videoId = document.videoId → document.segments {} = []) := by
  have wellNamed := wellNamed_pairFolder "types" "kinds"
  have safe : (pairFolder "types" "kinds").SafeHeaders ⟨"p"⟩ :=
    safeHeaders_pairFolder (by decide +kernel)
  have segmented :
      ((segment {} ⟨"p"⟩ ⟨"s"⟩).runOn (pairFolder "types" "kinds")).1.toOption =
        some ⟨[⟨"s/types.jsonl"⟩, ⟨"s/kinds.jsonl"⟩], 2⟩ := by
    rw [runOn_segment_pairFolder]
    decide +kernel
  have run := Job.runOn_of_toOption segmented
  exact ⟨wellNamed, safe, _, _, run, rfl, segment_reports wellNamed safe run⟩

/-- Of two documents with one id the first one is lost, though the folder of the streams is
new: the report names the one stream twice, and counts two segments where one is stored. -/
theorem not_segment_reports :
    (pairFolder "types" "types").WellNamed ∧
      (pairFolder "types" "types").SafeHeaders ⟨"p"⟩ ∧
      (pairFolder "types" "types").IsVacant ⟨"s"⟩ ∧
      ∃ report after,
        (segment {} ⟨"p"⟩ ⟨"s"⟩).runOn (pairFolder "types" "types") =
          (.ok report, after) ∧
        report = ⟨[⟨"s/types.jsonl"⟩, ⟨"s/types.jsonl"⟩], 2⟩ ∧
        ¬report.streams.Nodup ∧ after.files.countSegments report.streams = 1 := by
  have safe : (pairFolder "types" "types").SafeHeaders ⟨"p"⟩ :=
    safeHeaders_pairFolder (by decide +kernel)
  have vacant : (pairFolder "types" "types").IsVacant ⟨"s"⟩ := by
    intro name isName
    have place : (Path.mk "s").place = ["s"] := by
      decide +kernel
    rw [place, FileTree.node?, isName.isAnchor_append]
    rfl
  obtain ⟨segmented, stored⟩ :
      ((segment {} ⟨"p"⟩ ⟨"s"⟩).runOn (pairFolder "types" "types")).1.toOption =
          some ⟨[⟨"s/types.jsonl"⟩, ⟨"s/types.jsonl"⟩], 2⟩ ∧
        ((segment {} ⟨"p"⟩ ⟨"s"⟩).runOn (pairFolder "types" "types")).2.files.countSegments
          [⟨"s/types.jsonl"⟩, ⟨"s/types.jsonl"⟩] = 1 := by
    rw [runOn_segment_pairFolder]
    decide +kernel
  exact ⟨wellNamed_pairFolder "types" "types", safe, vacant, _, _,
    Job.runOn_of_toOption segmented, rfl, by decide, stored⟩

end LectureQuiz
