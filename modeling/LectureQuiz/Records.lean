import LectureQuiz.Item
import LectureQuiz.Json.Reader
import LectureQuiz.Json.Writer
import LectureQuiz.Segment
import LectureQuiz.Text.Lines

/-!
# Files of records

A file of records has one record a line, written as JSON. Reading is lenient:
blank lines do not count, and a line that is no record is skipped.
-/

namespace LectureQuiz

open LectureQuiz.Text

/-- A type of records, with its written form. -/
class Record (alpha : Type) where
  toJson : alpha → Json
  ofJson? : Json → Option alpha

instance : Record Segment := ⟨Segment.toJson, Segment.ofJson?⟩

instance : Record Item := ⟨Item.toJson, Item.ofJson?⟩

/-- The records of a file, and the number of lines that are none. -/
structure Records (alpha : Type) where
  records : List alpha
  skipped : Nat
  deriving Repr

namespace Records

variable {alpha : Type} [Record alpha]

/-- The trimmed lines that are not blank. -/
def contentLines (content : String) : List (List Char) :=
  ((lines content.toList).map trim).filter (· ≠ [])

/-- The record that a line writes. -/
def decodeLine? (alpha : Type) [Record alpha] (line : List Char) : Option alpha :=
  Json.parse? line >>= Record.ofJson?

def parse (content : String) : Records alpha :=
  let decoded := (contentLines content).map (decodeLine? alpha)
  ⟨decoded.filterMap id, decoded.countP Option.isNone⟩

/-- The line that writes a record, with its line feed. -/
def encodeLine (record : alpha) : List Char :=
  Json.compactChars (Record.toJson record) ++ ['\n']

/-- The content of a file that holds the records. -/
def render (records : List alpha) : String :=
  String.ofList (records.flatMap encodeLine)

end Records

end LectureQuiz
