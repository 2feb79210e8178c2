import LectureQuiz.Text.Blank
import LectureQuiz.Text.Lines

namespace LectureQuiz.Text

/-- Writes every line break as one line feed: a carriage return with or without
a line feed after it is a break. -/
def unifyBreaks : List Char → List Char
  | [] => []
  | '\r' :: '\n' :: rest => '\n' :: unifyBreaks rest
  | '\r' :: rest => '\n' :: unifyBreaks rest
  | character :: rest => character :: unifyBreaks rest

/-- The lines of a raw text without the blanks at their ends. -/
def cleanLines (raw : List Char) : List (List Char) :=
  (pieces '\n' (unifyBreaks raw)).map (dropTrailing isBlank)

def normalizeChars (raw : List Char) : List Char :=
  strip (· == '\n') (joinLines (cleanLines raw)) ++ ['\n']

/-- The normalized form of a raw text. -/
def normalize (raw : String) : String :=
  String.ofList (normalizeChars raw.toList)

end LectureQuiz.Text
