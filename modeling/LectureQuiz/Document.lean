import LectureQuiz.Json.Reader
import LectureQuiz.Json.Record
import LectureQuiz.Json.Writer
import LectureQuiz.Text.Normalized
import LectureQuiz.VideoIndex

/-!
# Annotated documents

A document is a normalized transcript under a header that says which video it
belongs to. On disk the header is a JSON object between two lines of dashes. A
rendered document is read back as it was, whatever its title and body hold.
-/

namespace LectureQuiz

open LectureQuiz.Text

structure FrontMatter where
  title : String
  module : UInt32
  url : String
  videoId : String
  deriving DecidableEq, Repr

namespace FrontMatter

def ofEntry (entry : VideoEntry) : FrontMatter :=
  ⟨entry.title, entry.module, entry.url, entry.videoId⟩

def fieldNames : List String :=
  ["title", "module", "url", "video_id"]

def toJson (header : FrontMatter) : Json :=
  .object
    [("title", .string header.title),
      ("module", Json.ofWord32 header.module),
      ("url", .string header.url),
      ("video_id", .string header.videoId)]

def ofJson? (value : Json) : Option FrontMatter := do
  let fields ← value.fields? fieldNames
  let title ← fields.withDefault? "title" "" Json.text?
  let module ← fields.withDefault? "module" 0 Json.word32?
  let url ← fields.withDefault? "url" "" Json.text?
  let videoId ← fields.withDefault? "video_id" "" Json.text?
  return ⟨title, module, url, videoId⟩

end FrontMatter

structure Document where
  header : FrontMatter
  body : String
  deriving DecidableEq, Repr

/-- A document as it is read from a file: the header may be missing or broken. -/
structure ParsedDocument where
  header : Option FrontMatter
  body : String
  deriving DecidableEq, Repr

/-- The line before and after the header. -/
def delimiter : List Char :=
  ['-', '-', '-']

/-- Whether a line is a delimiter; blanks after it do not matter. -/
def isDelimiter (line : List Char) : Bool :=
  dropTrailing isBlank line == delimiter

/-- The lines of the header and the lines after it, when the lines start with a
delimiter and hold a second one. -/
def splitHeader? : List (List Char) → Option (List (List Char) × List (List Char))
  | [] => none
  | first :: rest =>
      if isDelimiter first then
        match rest.dropWhile (!isDelimiter ·) with
        | [] => none
        | _ :: body => some (rest.takeWhile (!isDelimiter ·), body)
      else
        none

namespace ParsedDocument

/-- Reads the content of a file. Header lines never get into the body, and
without both delimiters everything is body. -/
def parse (content : String) : ParsedDocument :=
  match splitHeader? (lines content.toList) with
  | none => ⟨none, normalize content⟩
  | some (header, body) =>
      ⟨Json.parse? (joinLines header) >>= FrontMatter.ofJson?,
        String.ofList (normalizeChars (joinLines body))⟩

/-- Fills in what the header does not tell from the name of the file. -/
def complete (parsed : ParsedDocument) (stem : String) : Document :=
  let header := parsed.header.getD ⟨stem, 0, "", ""⟩
  let videoId := if header.videoId = "" then stem else header.videoId
  ⟨{ header with videoId := videoId }, parsed.body⟩

end ParsedDocument

namespace Document

/-- The document of a raw transcript. -/
def ofRaw (entry : VideoEntry) (raw : String) : Document :=
  ⟨FrontMatter.ofEntry entry, normalize raw⟩

def videoId (document : Document) : String :=
  document.header.videoId

/-- The content of the file that holds the document. -/
def render (document : Document) : String :=
  String.ofList (delimiter ++ ['\n'] ++
    Json.prettyChars 0 document.header.toJson ++ ['\n'] ++
    delimiter ++ ['\n', '\n'] ++ document.body.toList)

/-- The document in a file with the given name. -/
def ofFile (content stem : String) : Document :=
  (ParsedDocument.parse content).complete stem

end Document

end LectureQuiz
