import LectureQuiz.Bank
import LectureQuiz.Config
import LectureQuiz.QuizSet.Pack
import LectureQuiz.Span
import LectureQuiz.VideoIndex

/-!
# Stages

The way from raw transcripts to packed sets has four stages. Each reads a folder
and writes its results under the id of the video or the number of the module, so
that a stage that is run again replaces what it wrote before.
-/

namespace LectureQuiz

open LectureQuiz.Text

/-- A file of a stage's input folder. -/
structure InputFile where
  path : Path
  /-- The name of the file without its extension. -/
  stem : String
  deriving DecidableEq, Repr

/-- The files in a folder that have the extension, by name. A file is passed over when
its path is too long to be used. -/
def inputFiles (folder : Path) (extension : String) : Job (List InputFile) := do
  let files ← Job.files
  if !files.isFolder folder then
    throw (.missingInput folder)
  let location ← Job.atPath folder (files.locate folder)
  let named := (files.fileNames location extension).map fun name =>
    InputFile.mk (folder.join name) (nameStem name)
  return named.filter fun file => files.isFile file.path

/-- Runs a job for each of some files, and reports every file when it is done. -/
def forEachFile {alpha : Type} (files : List InputFile)
    (job : InputFile → Job alpha) : Job (List alpha) :=
  files.zipIdx.mapM fun (file, position) => do
    let result ← job file
    Job.report (.file file.stem (position + 1) files.length)
    return result

/-- The index in the file of a table. A folder has no header that can be read. -/
def loadIndex (path : Path) : Job VideoIndex := do
  match (← Job.files).read path with
  | .error .isAFolder => throw .unreadableHeader
  | .error fault => throw (Error.ofFault path fault)
  | .ok content =>
      match VideoIndex.ofCsv? content.data.toList with
      | some index => return index
      | none => throw .unreadableHeader

/-- What a run of `ingest` wrote. -/
structure IngestReport where
  documents : List Path
  /-- The number of transcripts that no entry of the index matched. -/
  synthetic : Nat
  deriving DecidableEq, Repr

/-- Writes the document of one raw transcript. The result is its path, and how
its entry was found. -/
def ingestFile (index : VideoIndex) (out : Path) (file : InputFile) :
    Job (Path × VideoIndex.Resolution) := do
  let (entry, resolution) := index.resolve file.stem
  let document := Document.ofRaw entry (lossyText (← Job.readBytes file.path))
  let target := out.join s!"{document.videoId}.md"
  Job.writeText target document.render
  return (target, resolution)

/-- Writes a document for every raw transcript in a folder. -/
def ingest (index : VideoIndex) (placeholders out : Path) : Job IngestReport := do
  let files ← inputFiles placeholders "txt"
  Job.createFolders out
  let written ← forEachFile files (ingestFile index out)
  return ⟨written.map Prod.fst, written.countP (·.2 == .synthetic)⟩

/-- What a run of `segment` wrote. -/
structure SegmentReport where
  streams : List Path
  /-- The number of segments in all streams. -/
  segments : Nat
  deriving DecidableEq, Repr

/-- Writes the segments of one document. The result is the path of their file,
and their number. -/
def segmentFile (bounds : Window.Bounds) (out : Path) (file : InputFile) :
    Job (Path × Nat) := do
  let document := Document.ofFile (← Job.readText file.path) file.stem
  match document.segments? bounds with
  | none => throw .positionOverflow
  | some segments =>
      let target := out.join s!"{document.videoId}.jsonl"
      Job.writeRecords target segments
      return (target, segments.length)

/-- Writes the segments of every document in a folder. -/
def segment (bounds : Window.Bounds) (transcripts out : Path) :
    Job SegmentReport := do
  let files ← inputFiles transcripts "md"
  Job.createFolders out
  let written ← forEachFile files (segmentFile bounds out)
  return ⟨written.map Prod.fst, (written.map Prod.snd).foldl (· + ·) 0⟩

/-- What a run of `generate` wrote. -/
structure GenerateReport where
  bank : Path
  /-- The number of segments that were read. -/
  segments : Nat
  /-- The number of items that were drafted. -/
  items : Nat
  deriving DecidableEq, Repr

/-- Writes the bank of all segments in a folder. All segments are read before
anything is written. -/
def generate (rules : RuleSet) (segments bank : Path) : Job GenerateReport := do
  let files ← inputFiles segments "jsonl"
  let contents ← forEachFile files fun file =>
    Job.readRecords Segment file.path
  let items := Bank.generate rules contents.flatten
  Job.writeRecords bank items
  return ⟨bank, contents.flatten.length, items.length⟩

/-- What a run of all stages wrote. -/
structure RunReport where
  ingest : IngestReport
  segment : SegmentReport
  generate : GenerateReport
  packing : Packing
  deriving Repr

/-- Runs all stages on the files of a configuration. Index, bounds and rules are
checked before the first stage writes. -/
def runAll (config : Config) : Job RunReport := do
  let paths := config.paths
  Job.report (.phase "Loading index")
  let index ← loadIndex paths.index
  checkBounds config.bounds
  let rules ← config.ruleSet
  Job.report (.phase "Normalizing placeholders")
  let ingested ← ingest index paths.placeholders paths.transcripts
  Job.report (.phase "Segmenting transcripts")
  let segmented ← segment config.bounds paths.transcripts paths.segments
  Job.report (.phase "Generating draft items")
  let generated ← generate rules paths.segments paths.draftBank
  Job.report (.phase "Packing quiz sets")
  let packing ← packBanks [paths.packedBank] paths.sets none
  Job.report .done
  return ⟨ingested, segmented, generated, packing⟩

end LectureQuiz
