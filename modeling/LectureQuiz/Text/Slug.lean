import LectureQuiz.Text.Blank

namespace LectureQuiz.Text

/-- Writes one underscore for each run of characters that are not ASCII letters
or digits. The flag says that the text continues such a run. -/
def collapseRuns (insideRun : Bool) : List Char → List Char
  | [] => []
  | character :: rest =>
      if character.isAlphanum then
        character :: collapseRuns false rest
      else if insideRun then
        collapseRuns true rest
      else
        '_' :: collapseRuns true rest

def slugChars (label : List Char) : List Char :=
  (strip (· == '_') (collapseRuns false (trim label))).map Char.toLower

/-- The identifier form of a label. -/
def slug (label : String) : String :=
  String.ofList (slugChars label.toList)

end LectureQuiz.Text
