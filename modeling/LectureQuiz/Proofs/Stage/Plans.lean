import LectureQuiz.Proofs.Stage.Transcription

/-!
# Documents and segments as transcriptions

Both stages that write a file for each file have the shape of a transcription. The ids
of the documents of raw transcripts never lead to another folder, because they are made
from file names. The ids of the documents in a folder are what their headers say.
-/

namespace LectureQuiz

open LectureQuiz.Text

namespace VideoIndex

/-- A file is matched by its name or by the slug of its name, and keeps it as its id. -/
theorem videoId_resolve (index : VideoIndex) (stem : String) :
    (index.resolve stem).1.videoId = stem ∨
      (index.resolve stem).1.videoId = slug stem := by
  rw [resolve]
  split
  · rename_i entry found
    exact Or.inl (by simpa using List.find?_some found)
  split
  · rename_i entry found
    exact Or.inr (by simpa using List.find?_some found)
  · dsimp only [syntheticEntry]
    split
    · exact Or.inl rfl
    · exact Or.inr rfl

end VideoIndex

theorem slash_not_mem_stem
    {name : String} (isName : IsName name) {extension : String}
    (hasExtension : nameExtension? name = some extension) :
    '/' ∉ (nameStem name).toList := by
  have part := (splitName_eq_some (Prod.ext rfl hasExtension)).2
  exact fun slash => isName.noSlash (part.subset slash)

theorem slash_not_mem_resolve
    (index : VideoIndex) {stem : String} (noSlash : '/' ∉ stem.toList) :
    '/' ∉ (index.resolve stem).1.videoId.toList := by
  rcases index.videoId_resolve stem with same | same
  · rw [same]
    exact noSlash
  · rw [same]
    exact slash_not_mem_slug stem

/-- The stage that writes the documents of raw transcripts. -/
def ingestion (index : VideoIndex) (placeholders out : Path) :
    Transcription (Path × VideoIndex.Resolution) where
  folder := placeholders
  out := out
  source := "txt"
  target := "md"
  job := ingestFile index out
  plan stem bytes :=
    let (entry, resolution) := index.resolve stem
    let document := Document.ofRaw entry (lossyText bytes)
    some (document, out.join (document.fileName "md"), resolution)
  content := Document.bytes
  isSource := isExtension_txt
  isTarget := isExtension_md
  different := by decide
  yields_iff := by
    intro session after file value _ _
    simp only [ingestFile, Job.yields_bind, Job.yields_readBytes,
      Job.yields_writeText, Job.yields_pure, Option.some.injEq, Prod.mk.injEq,
      Document.fileName_md, Document.bytes]
    constructor
    · intro yields
      rcases yields with ⟨bytes, _, ⟨isRead, rfl⟩, _, _, ⟨other, written, rfl⟩, rfl, rfl⟩
      exact ⟨bytes, _, other, isRead, ⟨rfl, rfl⟩, written, rfl⟩
    · intro writesOne
      rcases writesOne with ⟨bytes, _, other, isRead, ⟨rfl, rfl⟩, written, rfl⟩
      exact ⟨bytes, _, ⟨isRead, rfl⟩, (), _, ⟨other, written, rfl⟩, rfl, rfl⟩

theorem content_ingestion (index : VideoIndex) (placeholders out : Path) :
    (ingestion index placeholders out).content = Document.bytes := by
  rw [ingestion]

variable {index : VideoIndex} {placeholders transcripts out : Path}
  {bounds : Window.Bounds} {session after : Session} {tree : FileTree}

theorem yields_ingest_iff {report : IngestReport} :
    (ingest index placeholders out).Yields session report after ↔
      ∃ values, (ingestion index placeholders out).run.Yields session values after ∧
        report = ⟨values.map Prod.fst, values.countP (·.2 == .synthetic)⟩ := by
  simp only [ingest, Transcription.run, ingestion, Job.yields_bind, Job.yields_pure]
  constructor
  · intro yields
    rcases yields with ⟨files, _, lists, _, _, creates, values, _, writes, rfl, rfl⟩
    exact ⟨values, ⟨files, _, lists, _, _, creates, writes⟩, rfl⟩
  · intro yields
    rcases yields with ⟨values, ⟨files, _, lists, _, _, creates, writes⟩, rfl⟩
    exact ⟨files, _, lists, _, _, creates, values, _, writes, rfl, rfl⟩

theorem safe_ingestion (wellNamed : tree.WellNamed) :
    (ingestion index placeholders out).Safe tree := by
  intro name bytes result hasExtension isFile planned
  have isName := wellNamed _ name bytes isFile
  rw [ingestion, Option.some.injEq] at planned
  rw [← planned]
  exact slash_not_mem_resolve index (slash_not_mem_stem isName hasExtension)

theorem FileTree.checkPath_of_write
    {tree other : FileTree} {path : Path} {content : ByteArray}
    (written : tree.write path content = .ok other) : checkPath path = .ok () := by
  rcases write_eq_ok.1 written with ⟨place, isTarget, _⟩
  exact (target_eq_ok.1 isTarget).1

/-- What segmenting makes of the content of a file. -/
def segmentPlan (bounds : Window.Bounds) (out : Path) (stem : String)
    (bytes : ByteArray) : Option (Document × Path × Nat) :=
  (text? bytes).bind fun text =>
    let document := Document.ofFile text stem
    (document.segments? bounds).map fun segments =>
      (document, out.join (document.fileName "jsonl"), segments.length)

theorem segmentPlan_eq_some
    {stem : String} {bytes : ByteArray} {result : Document × Path × Nat} :
    segmentPlan bounds out stem bytes = some result ↔
      ∃ text segments, text? bytes = some text ∧
        (Document.ofFile text stem).segments? bounds = some segments ∧
        result = (Document.ofFile text stem,
          out.join ((Document.ofFile text stem).fileName "jsonl"),
          segments.length) := by
  simp only [segmentPlan, Option.bind_eq_some_iff, Option.map_eq_some_iff,
    @eq_comm _ result]
  constructor
  · intro planned
    rcases planned with ⟨text, isText, segments, areSegments, same⟩
    exact ⟨text, segments, isText, areSegments, same⟩
  · intro planned
    rcases planned with ⟨text, segments, isText, areSegments, same⟩
    exact ⟨text, isText, segments, areSegments, same⟩

/-- In the folder of the streams no folder has to be created for a stream. -/
theorem yields_segmentFile_iff
    {file : InputFile} {value : Path × Nat}
    (has : session.files.HasFolder out out.place)
    (safe : ∀ bytes result, session.files.read file.path = .ok bytes →
      segmentPlan bounds out file.stem bytes = some result →
        '/' ∉ result.1.videoId.toList) :
    (segmentFile bounds out file).Yields session value after ↔
      ∃ bytes document other, session.files.read file.path = .ok bytes ∧
        segmentPlan bounds out file.stem bytes = some (document, value) ∧
        session.files.write (out.join (document.fileName "jsonl"))
          (document.stream bounds) = .ok other ∧
        after = { session with files := other } := by
  have created {document : Document} (noSlash : '/' ∉ document.videoId.toList)
      (checked : FileTree.checkPath (out.join (document.fileName "jsonl")) =
        .ok ()) :
      session.files.createAll (out.join (document.fileName "jsonl")).parent?.toList =
        some session.files :=
    has.createAll_parent? (Document.isName_fileName noSlash isExtension_jsonl) checked
  simp only [segmentFile, Job.yields_bind, Job.yields_readText,
    Document.fileName_jsonl]
  constructor
  · intro yields
    rcases yields with ⟨text, _, ⟨⟨bytes, isRead, isText⟩, rfl⟩, yieldsRest⟩
    split at yieldsRest
    · exact absurd yieldsRest Job.not_yields_throw
    rename_i segments areSegments
    rcases Job.yields_bind.1 yieldsRest with ⟨_, _, yieldsWrite, returns⟩
    rcases Job.yields_writeRecords.1 yieldsWrite with
      ⟨made, other, createdMade, written, rfl⟩
    rcases Job.yields_pure.1 returns with ⟨rfl, rfl⟩
    have planned : segmentPlan bounds out file.stem bytes = some _ :=
      segmentPlan_eq_some.2 ⟨text, segments, isText, areSegments, rfl⟩
    have same := created (safe bytes _ isRead planned)
      (FileTree.checkPath_of_write written)
    rw [createdMade, Option.some.injEq] at same
    subst same
    refine ⟨bytes, _, other, isRead, planned, ?_, rfl⟩
    rw [Document.stream, Document.segments, areSegments]
    exact written
  · intro writesOne
    rcases writesOne with ⟨bytes, document, other, isRead, planned, written, rfl⟩
    have noSlash := safe bytes _ isRead planned
    have createdNone := created noSlash (FileTree.checkPath_of_write written)
    rcases segmentPlan_eq_some.1 planned with
      ⟨text, segments, isText, areSegments, same⟩
    rcases Prod.mk.inj same with ⟨rfl, rfl⟩
    refine ⟨text, session, ⟨⟨bytes, isRead, isText⟩, rfl⟩, ?_⟩
    rw [Document.stream, Document.segments, areSegments] at written
    rw [areSegments]
    refine Job.yields_bind.2 ⟨(), _, ?_, Job.yields_pure.2 ⟨rfl, rfl⟩⟩
    exact Job.yields_writeRecords.2 ⟨_, other, createdNone, written, rfl⟩

/-- The stage that writes the segments of documents. -/
def segmentation (bounds : Window.Bounds) (transcripts out : Path) :
    Transcription (Path × Nat) where
  folder := transcripts
  out := out
  source := "md"
  target := "jsonl"
  job := segmentFile bounds out
  plan := segmentPlan bounds out
  content := Document.stream bounds
  isSource := isExtension_md
  isTarget := isExtension_jsonl
  different := by decide
  yields_iff := yields_segmentFile_iff

theorem yields_segment_iff {report : SegmentReport} :
    (segment bounds transcripts out).Yields session report after ↔
      ∃ values,
        (segmentation bounds transcripts out).run.Yields session values after ∧
        report = ⟨values.map Prod.fst, (values.map Prod.snd).foldl (· + ·) 0⟩ := by
  simp only [segment, Transcription.run, segmentation, Job.yields_bind,
    Job.yields_pure]
  constructor
  · intro yields
    rcases yields with ⟨files, _, lists, _, _, creates, values, _, writes, rfl, rfl⟩
    exact ⟨values, ⟨files, _, lists, _, _, creates, writes⟩, rfl⟩
  · intro yields
    rcases yields with ⟨values, ⟨files, _, lists, _, _, creates, writes⟩, rfl⟩
    exact ⟨files, _, lists, _, _, creates, values, _, writes, rfl, rfl⟩

/-- No document in the folder has a header whose id would lead to another folder. -/
def FileTree.SafeHeaders (tree : FileTree) (folder : Path) : Prop :=
  ∀ (name : String) (bytes : ByteArray) (text : String) (header : FrontMatter),
    nameExtension? name = some "md" →
    tree.node? (folder.place ++ [name]) = some (.file bytes) →
    text? bytes = some text → (ParsedDocument.parse text).header = some header →
      '/' ∉ header.videoId.toList

/-- The headers of documents of raw transcripts say what the file names say. -/
theorem Transcription.Leaves.safeHeaders
    {made final : FileTree} {steps : List (Step (Path × VideoIndex.Resolution))}
    (leaves : (ingestion index placeholders out).Leaves tree made final steps)
    (safe : tree.SafeHeaders out) : final.SafeHeaders out := by
  intro name bytes text header hasExtension isFile isText parsed
  cases written : (ingestion index placeholders out).writes steps
      (out.place ++ [name]) with
  | none =>
      rw [leaves.updates.node?_of_none written, leaves.grows.node?_file_iff] at isFile
      exact safe name bytes text header hasExtension isFile isText parsed
  | some content =>
      rw [leaves.updates.node?_of_some written, Option.some.injEq,
        Node.file.injEq] at isFile
      rcases eq_content_of_writes written with ⟨step, member, _, isContent⟩
      rw [content_ingestion] at isContent
      have plans := leaves.plans step member
      have normalBody : step.document.HasNormalBody := by
        have planned := plans.planned
        rw [ingestion, Option.some.injEq, Prod.mk.injEq] at planned
        rw [← planned.1]
        exact Document.exists_isNormal_normalizeChars _
      have isRendered : text = step.document.render := by
        rw [← isFile, isContent, Document.bytes, text?_toUTF8,
          Option.some.injEq] at isText
        exact isText.symm
      rw [isRendered, step.document.parse_of_lines normalBody rfl,
        Option.some.injEq] at parsed
      rw [← parsed]
      exact plans.noSlash

theorem videoId_ofFile (content stem : String) :
    (Document.ofFile content stem).videoId = stem ∨
      ∃ header, (ParsedDocument.parse content).header = some header ∧
        (Document.ofFile content stem).videoId = header.videoId := by
  rw [Document.videoId, Document.ofFile, ParsedDocument.complete]
  dsimp only
  split
  · exact Or.inl rfl
  · rename_i named
    cases parsed : (ParsedDocument.parse content).header with
    | none =>
        rw [parsed] at named
        exact absurd rfl named
    | some header => exact Or.inr ⟨header, rfl, rfl⟩

theorem safe_segmentation
    (wellNamed : tree.WellNamed) (safe : tree.SafeHeaders transcripts) :
    (segmentation bounds transcripts out).Safe tree := by
  intro name bytes result hasExtension isFile planned
  rcases segmentPlan_eq_some.1 planned with ⟨text, _, isText, _, rfl⟩
  rcases videoId_ofFile text (nameStem name) with same | ⟨header, parsed, same⟩
  · rw [same]
    exact slash_not_mem_stem (wellNamed _ name bytes isFile) hasExtension
  · rw [same]
    exact safe name bytes text header hasExtension isFile isText parsed

end LectureQuiz
