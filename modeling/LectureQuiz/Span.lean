import LectureQuiz.Document
import LectureQuiz.Segment
import LectureQuiz.Timestamp
import LectureQuiz.Window

/-!
# Spans

The body of a document is cut into spans in one of two ways. If any line carries
a time stamp, every stamped line starts a section, and the lines up to the next
stamp are its text. Otherwise the body is cut into windows.
-/

namespace LectureQuiz

open LectureQuiz.Text

inductive Strategy where
  | timestamped
  | fixedWindow
  deriving DecidableEq, Repr

/-- The strategy for a body: one stamp anywhere decides for the whole. -/
def Strategy.detect (body : String) : Strategy :=
  if (lines body.toList).any (stampOf? · |>.isSome) then
    .timestamped
  else
    .fixedWindow

structure Span where
  start : Option UInt32
  finish : Option UInt32
  text : String
  deriving DecidableEq, Repr

/-- The lines after a stamp, or the lines in front of the first one. -/
structure Section where
  start : Option UInt32
  lines : List (List Char)
  deriving DecidableEq, Repr

namespace Section

/-- The lines in front of the first stamp, and a section for every stamp. -/
def gather : List (List Char) → List (List Char) × List Section
  | [] => ([], [])
  | line :: rest =>
      let (leading, sections) := gather rest
      match stampOf? line with
      | some time => ([], ⟨some time, leading⟩ :: sections)
      | none => (line :: leading, sections)

/-- The sections of a body. Lines in front of the first stamp are a section
without a start. -/
def ofLines (lines : List (List Char)) : List Section :=
  let (leading, sections) := gather lines
  if leading = [] then sections else ⟨none, leading⟩ :: sections

def text (part : Section) : List Char :=
  trim (joinLines part.lines)

/-- The spans of the sections that have text. A span ends where the next section
starts, whether or not that one has text. -/
def spans : List Section → List Span
  | [] => []
  | part :: rest =>
      if part.text = [] then
        spans rest
      else
        ⟨part.start, rest.head?.bind Section.start, String.ofList part.text⟩ ::
          spans rest

end Section

/-- The spans of a body by its stamps. -/
def stampedSpans (body : String) : List Span :=
  Section.spans (Section.ofLines (lines body.toList))

/-- The spans of a body by windows; they have no times. -/
def windowSpans (bounds : Window.Bounds) (body : String) : List Span :=
  (Window.chunks bounds body.toList).map fun chunk =>
    ⟨none, none, String.ofList chunk⟩

/-- The spans of a body, unless the positions of its windows do not fit into 64
bits. -/
def spans? (bounds : Window.Bounds) (strategy : Strategy) (body : String) :
    Option (List Span) :=
  match strategy with
  | .timestamped => some (stampedSpans body)
  | .fixedWindow =>
      if Window.inRange bounds body.toList then some (windowSpans bounds body)
      else none

def Segment.ofSpan (header : FrontMatter) (span : Span) : Segment :=
  ⟨header.videoId, header.module, span.start, span.finish, span.text⟩

/-- The segments of a document, under the same condition as its spans. -/
def Document.segments? (bounds : Window.Bounds) (document : Document) :
    Option (List Segment) :=
  (spans? bounds (Strategy.detect document.body) document.body).map
    (·.map (Segment.ofSpan document.header))

end LectureQuiz
