import LectureQuiz.Proofs.Job.Orderly
import LectureQuiz.Stage

namespace LectureQuiz

open Job

theorem orderly_inputFiles (folder : Path) (extension : String) :
    (inputFiles folder extension).Orderly := by
  apply Orderly.files.bind
  intro files
  have names : (do
      let location ← Job.atPath folder (files.locate folder)
      let named := (files.fileNames location extension).map fun name =>
        InputFile.mk (folder.join name) (nameStem name)
      return named.filter fun file : InputFile => files.isFile file.path).Orderly :=
    (Orderly.atPath folder _).bind fun _ => .pure _
  have isOther (selected : Option UInt32) :
      Error.missingInput folder ≠ .nothingToPack selected := nofun
  split
  · exact (Orderly.throw isOther).bind fun _ => names
  · exact (Orderly.pure ()).bind fun _ => names

theorem orderly_forEachFile
    {alpha : Type} {job : InputFile → Job alpha} (orderly : ∀ file, (job file).Orderly)
    (files : List InputFile) : (forEachFile files job).Orderly := by
  apply Orderly.mapM
  intro input
  apply (orderly input.1).bind
  intro value
  exact (Orderly.report _).bind fun _ => .pure value

theorem orderly_loadIndex (path : Path) : (loadIndex path).Orderly := by
  apply Orderly.files.bind
  intro files
  split
  · exact .throw fun _ => nofun
  · exact .throw (Orderly.ofFault_ne path _)
  · split
    · exact .pure _
    · exact .throw fun _ => nofun

theorem orderly_ingest (index : VideoIndex) (placeholders out : Path) :
    (ingest index placeholders out).Orderly := by
  have ingestsFile (file : InputFile) : (ingestFile index out file).Orderly :=
    (Orderly.readBytes file.path).bind fun _ =>
      (Orderly.writeText _ _).bind fun _ => .pure _
  exact (orderly_inputFiles placeholders "txt").bind fun files =>
    (Orderly.createFolders out).bind fun _ =>
      (orderly_forEachFile ingestsFile files).bind fun _ => .pure _

theorem orderly_segment (bounds : Window.Bounds) (transcripts out : Path) :
    (segment bounds transcripts out).Orderly := by
  have segmentsFile (file : InputFile) : (segmentFile bounds out file).Orderly := by
    apply (Orderly.readText file.path).bind
    intro content
    dsimp only
    split
    · exact .throw fun _ => nofun
    · exact (Orderly.writeRecords _ _).bind fun _ => .pure _
  exact (orderly_inputFiles transcripts "md").bind fun files =>
    (Orderly.createFolders out).bind fun _ =>
      (orderly_forEachFile segmentsFile files).bind fun _ => .pure _

theorem orderly_generate (rules : RuleSet) (segments bank : Path) :
    (generate rules segments bank).Orderly :=
  (orderly_inputFiles segments "jsonl").bind fun files =>
    (orderly_forEachFile (fun file => .readRecords file.path) files).bind fun _ =>
      (Orderly.writeRecords bank _).bind fun _ => .pure _

theorem orderly_replaceFile (folder : Path) (fileName content : String) :
    (replaceFile folder fileName content).Orderly :=
  (Orderly.writeText _ content).bind fun _ => .moveFile _ _

theorem orderly_pack (items : List Item) (folder : Path) (module : Option UInt32) :
    (pack items folder module).Orderly := by
  have writes (group : UInt32 × List Item) :
      (writeSets folder group.1 group.2).Orderly :=
    (Orderly.forM (fun _ => orderly_replaceFile folder _ _) SetMode.all).bind
      fun _ => .pure _
  rw [pack]
  split
  · exact .pure _
  · exact (Orderly.createFolders folder).bind fun _ =>
      (Orderly.mapM writes _).bind fun _ =>
        Orderly.files.bind fun _ =>
          (orderly_replaceFile folder _ _).bind fun _ => .pure _

theorem orderly_packBanks (banks : List Path) (folder : Path) (module : Option UInt32) :
    (packBanks banks folder module).Orderly := by
  have reads : (readBanks banks).Orderly :=
    (Orderly.mapM (fun bank => .readRecords bank) banks).bind fun _ => .pure _
  exact reads.bind fun items => orderly_pack items folder module

end LectureQuiz
