import LectureQuiz.CommandLine.Invocation
import LectureQuiz.Config.File
import LectureQuiz.Stage

/-!
# Running commands

Every command starts by loading the configuration. It either fails or ends with
some lines for the user.
-/

namespace LectureQuiz.CommandLine

/-- A line for the user. -/
inductive OutputLine where
  | text (line : String)
  /-- The line that tells how long the command took. -/
  | elapsed
  deriving DecidableEq, Repr

namespace Command

def loadConfig (home : Path) (config : Option Path) : Job Config :=
  match config with
  | some path => Config.load path
  | none => Config.loadUser home

/-- The names of modules in a summary. -/
def moduleNames (modules : List UInt32) : String :=
  ", ".intercalate (modules.map fun module => s!"m{module}")

def packingLine (packing : Packing) : OutputLine :=
  .text (s!"  Packed:    {moduleNames packing.modules} " ++
    s!"({packing.manifest.sets.length} files) in {packing.folder.text}")

def runIngest (index placeholders out : Path) : Job (List OutputLine) := do
  let videos ← loadIndex index
  let report ← LectureQuiz.ingest videos placeholders out
  return [.text (s!"  Wrote {report.documents.length} documents to {out.text} " ++
    s!"({report.synthetic} unmatched)")]

def runSegment (bounds : Window.Bounds) (transcripts out : Path) :
    Job (List OutputLine) := do
  checkBounds bounds
  let report ← LectureQuiz.segment bounds transcripts out
  return [.text (s!"  Wrote {report.segments} segments across " ++
    s!"{report.streams.length} streams to {out.text}")]

def runGenerate (config : Config) (segments out : Path) :
    Job (List OutputLine) := do
  let rules ← config.ruleSet
  let report ← LectureQuiz.generate rules segments out
  return [.text (s!"  Drafted {report.items} items from {report.segments} " ++
    s!"segments into {report.bank.text}")]

def runPack (banks : List Path) (out : Path) (module : Option UInt32) :
    Job (List OutputLine) := do
  let packing ← packBanks banks out module
  if packing.modules.isEmpty then
    throw (.nothingToPack module)
  return [packingLine packing]

def runAllStages (config : Config) : Job (List OutputLine) := do
  let report ← runAll config
  return [.text "",
    .text "  Question bank built!",
    .text s!"  Documents: {report.ingest.documents.length}",
    .text s!"  Segments:  {report.segment.segments}",
    .text s!"  Drafted:   {report.generate.items}",
    packingLine report.packing,
    .elapsed,
    .text ""]

/-- Runs a command under a configuration. -/
def runWith (home : Path) (config : Config) : Command → Job (List OutputLine)
  | .ingest index placeholders out =>
      runIngest (index.getD config.paths.index)
        (placeholders.getD config.paths.placeholders)
        (out.getD config.paths.transcripts)
  | .segment transcripts out =>
      runSegment config.bounds (transcripts.getD config.paths.transcripts)
        (out.getD config.paths.segments)
  | .generate segments out =>
      runGenerate config (segments.getD config.paths.segments)
        (out.getD config.paths.draftBank)
  | .pack banks out module =>
      runPack (if banks.isEmpty then [config.paths.packedBank] else banks)
        (out.getD config.paths.sets) module
  | .run => runAllStages config
  | .createConfig => do
      let path ← Config.writeDefault home
      return [.text s!"Config initialized at: {path.text}"]
  | .showConfig => return [.text config.render]

end Command

/-- Runs what the user asked for. -/
def Invocation.run (home : Path) (invocation : Invocation) :
    Job (List OutputLine) := do
  let config ← Command.loadConfig home invocation.config
  invocation.command.runWith home config

end LectureQuiz.CommandLine
