import LectureQuiz.Proofs.Document
import LectureQuiz.Proofs.FileTree.Parent
import LectureQuiz.Proofs.Stage.Ingest

namespace LectureQuiz

open LectureQuiz.Text

theorem isExtension_jsonl : IsExtension "jsonl" where
  notEmpty := by decide
  noSlash := by decide
  noDot := by decide

theorem Document.fileName_jsonl (document : Document) :
    s!"{document.videoId}.jsonl" = document.fileName "jsonl" := by
  rw [fileName, String.append_assoc]
  rfl

/-- The segments of a document whose positions fit into 64 bits. -/
def Document.segments (bounds : Window.Bounds) (document : Document) :
    List Segment :=
  (document.segments? bounds).getD []

/-- The bytes of the file of a document's segments. -/
def Document.stream (bounds : Window.Bounds) (document : Document) : ByteArray :=
  (Records.render (document.segments bounds)).toUTF8

variable {session : Session} {made : FileTree} {bounds : Window.Bounds}
  {transcripts out : Path} {documents : List Document} {document : Document}

/-- If the body of the document is cut into windows, their ends fit into 64 bits. -/
def Document.InRange (bounds : Window.Bounds) (document : Document) : Prop :=
  Strategy.detect document.body = .fixedWindow →
    Window.inRange bounds document.body.toList = true

theorem Document.InRange.segments?_eq (inRange : document.InRange bounds) :
    document.segments? bounds = some (document.segments bounds) := by
  have cut : ∃ spans, spans? bounds (.detect document.body) document.body =
      some spans := by
    cases detected : Strategy.detect document.body with
    | timestamped => exact ⟨_, rfl⟩
    | fixedWindow => exact ⟨_, if_pos (inRange detected)⟩
  obtain ⟨spans, isCut⟩ := cut
  rw [Document.segments, Document.segments?, isCut]
  rfl

theorem yields_segmentFile
    {done : List Document}
    (supplies : made.Supplies transcripts "md"
      (documents.map fun document => (document.fileName "md", document.bytes)))
    (accepts : made.Accepts out "jsonl" documents)
    (overlays : session.files.Overlays made
      (documentWrites out "jsonl" (Document.stream bounds) done))
    (member : document ∈ documents) (normalBody : document.HasNormalBody)
    (inRange : document.InRange bounds) :
    ∃ after, (segmentFile bounds out
        ⟨transcripts.join (document.fileName "md"),
          nameStem (document.fileName "md")⟩).Yields session
        (out.join (document.fileName "jsonl"), (document.segments bounds).length)
        after ∧
      after.files.Overlays made (documentWrites out "jsonl"
        (Document.stream bounds) (done ++ [document])) := by
  have ⟨⟨named, noSlash⟩, checked, _⟩ := accepts.writable document member
  have isSupplied : (document.fileName "md", document.bytes) ∈
      documents.map fun document => (document.fileName "md", document.bytes) :=
    List.mem_map.2 ⟨document, member, rfl⟩
  have isRead := supplies.read_of_overlays overlays isSupplied
  have isText : text? document.bytes = some document.render :=
    text?_toUTF8 document.render
  have isName := Document.isName_fileName noSlash isExtension_jsonl
  have isThere := (overlays.hasFolder accepts.hasFolder).createAll_parent? isName
    checked
  obtain ⟨other, written, overlaysOther⟩ := accepts.write isExtension_jsonl
    overlays member
  rw [← Document.fileName_jsonl] at isThere written ⊢
  refine ⟨{ session with files := other }, ?_, overlaysOther⟩
  refine Job.yields_bind.2 ⟨document.render, session, ?_, ?_⟩
  · exact Job.yields_readText.2 ⟨⟨_, isRead, isText⟩, rfl⟩
  · dsimp only
    rw [document.ofFile_of_lines normalBody named rfl,
      inRange.segments?_eq]
    refine Job.yields_bind.2 ⟨(), { session with files := other }, ?_, ?_⟩
    · exact Job.yields_writeRecords.2 ⟨_, other, isThere, written, rfl⟩
    · exact Job.yields_pure.2 ⟨rfl, rfl⟩

/-- A stream is written under a name that fits or not at all. -/
theorem fits_of_yields_segmentFile
    {path : Path} {stem : String} {result : Path × Nat} {after : Session}
    (isRead : session.files.read path = .ok document.bytes)
    (normalBody : document.HasNormalBody)
    (safe : VideoIndex.IsSafeId document.videoId)
    (yields : (segmentFile bounds out ⟨path, stem⟩).Yields session result after) :
    out.Fits (document.fileName "jsonl") := by
  obtain ⟨text, between, yieldsText, yieldsRest⟩ := Job.yields_bind.1 yields
  obtain ⟨⟨content, isContent, isText⟩, rfl⟩ := Job.yields_readText.1 yieldsText
  have sameContent := Except.ok.inj (isRead.symm.trans isContent)
  have sameText : some document.render = some text := by
    rw [← isText, ← sameContent]
    exact (text?_toUTF8 document.render).symm
  obtain rfl := Option.some.inj sameText
  dsimp only at yieldsRest
  rw [document.ofFile_of_lines normalBody safe.1 rfl] at yieldsRest
  split at yieldsRest
  · exact absurd yieldsRest Job.not_yields_throw
  obtain ⟨_, _, yieldsRecords, _⟩ := Job.yields_bind.1 yieldsRest
  obtain ⟨_, _, _, written, _⟩ := Job.yields_writeRecords.1 yieldsRecords
  obtain ⟨_, isTarget, _⟩ := FileTree.write_eq_ok.1 written
  rw [Document.fileName_jsonl] at isTarget
  exact FileTree.fits_of_target
    (Document.isName_fileName safe.2 isExtension_jsonl) isTarget

/-- The run leaves the files of the segments over the tree with the created
folder. -/
theorem yields_segment
    (supplies : session.files.Supplies transcripts "md"
      (documents.map fun document => (document.fileName "md", document.bytes)))
    (created : session.files.createFolders out = (.ok (), made))
    (accepts : made.Accepts out "jsonl" documents)
    (normalBody : ∀ document ∈ documents, document.HasNormalBody)
    (inRange : ∀ document ∈ documents, document.InRange bounds) :
    ∃ after, (segment bounds transcripts out).Yields session
        ⟨documents.map fun document => out.join (document.fileName "jsonl"),
          (documents.flatMap (Document.segments bounds)).length⟩ after ∧
      after.files.Overlays made
        (documentWrites out "jsonl" (Document.stream bounds) documents) := by
  have ⟨grows, _⟩ := FileTree.createFolders_ok created
  have step (done : List Document) (document : Document)
      (member : document ∈ documents) (session : Session)
      (overlays : session.files.Overlays made
        (documentWrites out "jsonl" (Document.stream bounds) done)) :=
    yields_segmentFile (supplies.of_grows grows) accepts overlays member
      (normalBody document member) (inRange document member)
  obtain ⟨after, yields, kept⟩ := yields_forEachFile_of_writes
    (documentWrites out "jsonl" (Document.stream bounds)) (fun _ => rfl) step
    session.progress
  refine ⟨after, ?_, kept⟩
  refine Job.yields_bind.2
    ⟨_, session, yields_inputFiles supplies isExtension_md.notEmpty, ?_⟩
  refine Job.yields_bind.2
    ⟨(), _, Job.yields_createFolders.2 ⟨made, created, rfl⟩, ?_⟩
  rw [List.map_map]
  refine Job.yields_bind.2 ⟨_, after, yields, Job.yields_pure.2 ⟨?_, rfl⟩⟩
  rw [List.map_map, List.map_map, ← List.sum_eq_foldl, List.length_flatMap]
  rfl

/-- The run fails when the name of the first stream does not fit. -/
theorem fits_of_yields_segment
    {report : SegmentReport} {after : Session}
    (supplies : session.files.Supplies transcripts "md"
      ((document :: documents).map fun document =>
        (document.fileName "md", document.bytes)))
    (normalBody : document.HasNormalBody)
    (safe : VideoIndex.IsSafeId document.videoId)
    (yields : (segment bounds transcripts out).Yields session report after) :
    out.Fits (document.fileName "jsonl") := by
  obtain ⟨files, first, yieldsFiles, yieldsRest⟩ := Job.yields_bind.1 yields
  obtain ⟨rfl, rfl⟩ := Job.yields_unique yieldsFiles
    (yields_inputFiles supplies isExtension_md.notEmpty)
  obtain ⟨_, _, yieldsFolders, yieldsWritten⟩ := Job.yields_bind.1 yieldsRest
  obtain ⟨made, created, rfl⟩ := Job.yields_createFolders.1 yieldsFolders
  obtain ⟨_, _, yieldsEach, _⟩ := Job.yields_bind.1 yieldsWritten
  rw [List.map_cons, List.map_cons] at yieldsEach
  obtain ⟨_, _, yieldsFirst⟩ := exists_of_yields_forEachFile yieldsEach
  dsimp only at yieldsFirst
  have ⟨grows, _⟩ := FileTree.createFolders_ok created
  have isSupplied : (document.fileName "md", document.bytes) ∈
      (document :: documents).map fun document =>
        (document.fileName "md", document.bytes) :=
    List.mem_map.2 ⟨document, List.mem_cons_self, rfl⟩
  have isRead := (supplies.of_grows grows).read_of_overlays (.refl made) isSupplied
  refine fits_of_yields_segmentFile ?_ normalBody safe yieldsFirst
  exact isRead

end LectureQuiz
