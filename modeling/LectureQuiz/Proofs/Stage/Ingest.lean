import LectureQuiz.Proofs.Stage.Files

namespace LectureQuiz

open LectureQuiz.Text

theorem isExtension_txt : IsExtension "txt" where
  notEmpty := by decide
  noSlash := by decide
  noDot := by decide

theorem isExtension_md : IsExtension "md" where
  notEmpty := by decide
  noSlash := by decide
  noDot := by decide

theorem Document.fileName_md (document : Document) :
    s!"{document.videoId}.md" = document.fileName "md" := by
  rw [fileName, String.append_assoc]
  rfl

/-- The document of a raw transcript, which is found by the name of its file. -/
def rawDocument (index : VideoIndex) (file : String × ByteArray) : Document :=
  .ofRaw (index.resolve (nameStem file.1)).1 (lossyText file.2)

theorem videoId_rawDocument (index : VideoIndex) (file : String × ByteArray) :
    (rawDocument index file).videoId =
      (index.resolve (nameStem file.1)).1.videoId :=
  rfl

/-- The bytes of a document's file. -/
def Document.bytes (document : Document) : ByteArray :=
  document.render.toUTF8

variable {session : Session} {made : FileTree} {index : VideoIndex}
  {placeholders out : Path} {raw : List (String × ByteArray)}

/-- The ids of all documents can be used in names when those of the index can. -/
theorem isSafeId_rawDocument
    (supplies : made.Supplies placeholders "txt" raw)
    (safe : ∀ entry ∈ index.entries, VideoIndex.IsSafeId entry.videoId) :
    ∀ document ∈ raw.map (rawDocument index),
      VideoIndex.IsSafeId document.videoId := by
  intro document member
  obtain ⟨file, isFile, rfl⟩ := List.mem_map.1 member
  have ⟨isName, _⟩ := supplies.readable file isFile
  have ⟨hasExtension, _⟩ := (supplies.holds.mem_iff file.1 file.2).1 isFile
  have ⟨notEmpty, part⟩ := splitName_eq_some (Prod.ext rfl hasExtension)
  have safeStem : VideoIndex.IsSafeId (nameStem file.1) :=
    ⟨notEmpty, fun slash => isName.noSlash (part.subset slash)⟩
  rw [videoId_rawDocument]
  exact VideoIndex.isSafeId_resolve safe safeStem

theorem yields_ingestFile
    {done : List (String × ByteArray)} {file : String × ByteArray}
    (supplies : made.Supplies placeholders "txt" raw)
    (accepts : made.Accepts out "md" (raw.map (rawDocument index)))
    (overlays : session.files.Overlays made
      (documentWrites out "md" Document.bytes (done.map (rawDocument index))))
    (member : file ∈ raw) :
    ∃ after, (ingestFile index out
        ⟨placeholders.join file.1, nameStem file.1⟩).Yields session
        (out.join ((rawDocument index file).fileName "md"),
          (index.resolve (nameStem file.1)).2) after ∧
      after.files.Overlays made (documentWrites out "md" Document.bytes
        ((done ++ [file]).map (rawDocument index))) := by
  have isRead := supplies.read_of_overlays overlays member
  obtain ⟨other, written, overlaysOther⟩ := accepts.write isExtension_md overlays
    (List.mem_map_of_mem member)
  rw [← Document.fileName_md] at written ⊢
  refine ⟨{ session with files := other }, ?_, ?_⟩
  · refine Job.yields_bind.2 ⟨file.2, session, ?_, ?_⟩
    · exact Job.yields_readBytes.2 ⟨isRead, rfl⟩
    · refine Job.yields_bind.2 ⟨(), { session with files := other }, ?_, ?_⟩
      · exact Job.yields_writeText.2 ⟨other, written, rfl⟩
      · exact Job.yields_pure.2 ⟨rfl, rfl⟩
  · rw [List.map_append]
    exact overlaysOther

/-- The run leaves the files of the documents over the tree with the created
folder. -/
theorem yields_ingest
    (supplies : session.files.Supplies placeholders "txt" raw)
    (created : session.files.createFolders out = (.ok (), made))
    (accepts : made.Accepts out "md" (raw.map (rawDocument index))) :
    ∃ after, (ingest index placeholders out).Yields session
        ⟨raw.map fun file => out.join ((rawDocument index file).fileName "md"),
          raw.countP fun file => (index.resolve (nameStem file.1)).2 == .synthetic⟩
        after ∧
      after.files.Overlays made
        (documentWrites out "md" Document.bytes (raw.map (rawDocument index))) := by
  have ⟨grows, _⟩ := FileTree.createFolders_ok created
  have step (done : List (String × ByteArray)) (file : String × ByteArray)
      (member : file ∈ raw) (session : Session)
      (overlays : session.files.Overlays made
        (documentWrites out "md" Document.bytes (done.map (rawDocument index)))) :=
    yields_ingestFile (supplies.of_grows grows) accepts overlays member
  obtain ⟨after, yields, kept⟩ := yields_forEachFile_of_writes
    (fun done => documentWrites out "md" Document.bytes (done.map (rawDocument index)))
    (fun _ => rfl) step session.progress
  refine ⟨after, ?_, kept⟩
  refine Job.yields_bind.2
    ⟨_, session, yields_inputFiles supplies isExtension_txt.notEmpty, ?_⟩
  refine Job.yields_bind.2
    ⟨(), _, Job.yields_createFolders.2 ⟨made, created, rfl⟩, ?_⟩
  refine Job.yields_bind.2 ⟨_, after, yields, Job.yields_pure.2 ⟨?_, rfl⟩⟩
  rw [List.map_map, List.countP_map]
  rfl

end LectureQuiz
