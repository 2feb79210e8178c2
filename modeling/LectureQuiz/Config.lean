import LectureQuiz.Error
import LectureQuiz.Rule.Course
import LectureQuiz.Window

/-!
# Configurations

A configuration says where the stages find and leave their files, how long
windows are, and which rules follow the course rules.
-/

namespace LectureQuiz

/-- Where the stages find and leave their files. -/
structure Paths where
  /-- The table of the video index. -/
  index : Path := ⟨"data/index.csv"⟩
  /-- The folder of raw transcripts. -/
  placeholders : Path := ⟨"data/placeholders"⟩
  /-- The folder of documents. -/
  transcripts : Path := ⟨"data/transcripts"⟩
  /-- The folder of segments. -/
  segments : Path := ⟨"data/segments"⟩
  /-- The bank that the rules draft. -/
  draftBank : Path := ⟨"data/draft/qbank_draft.jsonl"⟩
  /-- The bank that is packed instead of the draft. -/
  finalBank : Option Path := none
  /-- The folder of packed sets. -/
  sets : Path := ⟨"data/qbank"⟩
  deriving DecidableEq, Repr

namespace Paths

/-- The bank that is packed. -/
def packedBank (paths : Paths) : Path :=
  paths.finalBank.getD paths.draftBank

end Paths

structure Config where
  paths : Paths := {}
  bounds : Window.Bounds := {}
  /-- The rules that follow the course rules. -/
  rules : List Rule := []
  deriving DecidableEq, Repr

/-- Refuses windows of no length. -/
def checkBounds (bounds : Window.Bounds) : Except Error Unit :=
  if bounds.maxLength = 0 then .error .zeroWindow else .ok ()

namespace Config

/-- Refuses a configuration with which the stages could not work: windows of no
length, or a rule that cannot be used. -/
def check (config : Config) : Except Error Unit := do
  checkBounds config.bounds
  config.rules.forM fun rule => rule.validate.mapError .rule

/-- The course rules and the rules of the configuration. -/
def ruleSet (config : Config) : Except Error RuleSet :=
  match RuleSet.course.extend config.rules with
  | (set, none) => .ok set
  | (_, some fault) => .error (.rule fault)

end Config

end LectureQuiz
