import LectureQuiz.Config
import LectureQuiz.Toml.Writer

/-!
# Writing configurations

A configuration is written with all its values, those that have their default
included, and reads back as it was.
-/

namespace LectureQuiz

open Toml

/-- The line that gives a text to a key. -/
def textLine (key value : String) : List Char :=
  assignmentLine key (writeText value.toList)

/-- The line that gives a number to a key. -/
def numberLine (key : String) (value : Nat) : List Char :=
  assignmentLine key (Nat.toDigits 10 value)

/-- The lines that give texts to a key. -/
def textsLines (key : String) (values : List String) : List Char :=
  assignmentLine key (writeTexts values)

namespace AnswerTemplate

/-- The lines of the table of a template. -/
def tomlLines : AnswerTemplate → List Char
  | .trueFalse answer =>
      textLine "type" "tf" ++
        assignmentLine "answer" (if answer then "true" else "false").toList
  | .multipleChoice choices correct =>
      textLine "type" "mcq" ++ textsLines "choices" choices ++
        numberLine "correct" correct.toNat

end AnswerTemplate

namespace Rule

/-- The lines of the table of a rule. -/
def tomlLines (rule : Rule) : List Char :=
  headerLine 2 "rules" ++ numberLine "module" rule.module.toNat ++
    textLine "tag" rule.tag ++ textsLines "keywords" rule.keywords ++
    textLine "question" rule.question ++
    textLine "explanation" rule.explanation ++ textsLines "tags" rule.tags ++
    '\n' :: headerLine 1 "rules.answer" ++ rule.answer.tomlLines

end Rule

namespace Paths

/-- The lines of the table of the paths. -/
def tomlLines (paths : Paths) : List Char :=
  headerLine 1 "paths" ++ textLine "index" paths.index.text ++
    textLine "placeholders" paths.placeholders.text ++
    textLine "transcripts" paths.transcripts.text ++
    textLine "segments" paths.segments.text ++
    textLine "draft_bank" paths.draftBank.text ++
    (match paths.finalBank with
      | none => []
      | some bank => textLine "final_bank" bank.text) ++
    textLine "qbank" paths.sets.text

end Paths

namespace Window.Bounds

/-- The lines of the table of the bounds. -/
def tomlLines (bounds : Bounds) : List Char :=
  headerLine 1 "segmenter" ++ numberLine "max_len" bounds.maxLength.toNat ++
    numberLine "min_len" bounds.minLength.toNat

end Window.Bounds

namespace Config

/-- The content of a file that holds the configuration. -/
def render (config : Config) : String :=
  String.ofList (config.paths.tomlLines ++ '\n' :: config.bounds.tomlLines ++
    config.rules.flatMap fun rule => '\n' :: rule.tomlLines)

end Config

end LectureQuiz
