import LectureQuiz.Document
import LectureQuiz.Proofs.Json.Printable
import LectureQuiz.Proofs.Json.Record
import LectureQuiz.Proofs.Text.Normalized

/-!
# Documents on disk

A document that was made from a raw transcript or read from a file is read back
from what it is rendered as, under any file name, and also when the line feeds of
the file were written with carriage returns.
-/

namespace LectureQuiz

open LectureQuiz.Text

namespace FrontMatter

theorem ofJson?_toJson (header : FrontMatter) :
    ofJson? header.toJson = some header := by
  simp [ofJson?, toJson, Json.fields?, fieldNames, Fields.withDefault?,
    List.lookup_cons]

theorem isPlain_toJson (header : FrontMatter) :
    header.toJson.isPlain = true := by
  simp [toJson, Json.isPlain, Json.plainMembers]

/-- The line of one member of a rendered header, without its comma. -/
def memberLine (key : String) (value : List Char) : List Char :=
  ' ' :: ' ' :: (Json.writeString key ++ ':' :: ' ' :: value)

/-- The lines of a rendered header. -/
def renderedLines (header : FrontMatter) : List (List Char) :=
  [['\x7b'],
    memberLine "title" (Json.writeString header.title) ++ [','],
    memberLine "module" (Nat.toDigits 10 header.module.toNat) ++ [','],
    memberLine "url" (Json.writeString header.url) ++ [','],
    memberLine "video_id" (Json.writeString header.videoId),
    ['\x7d']]

theorem prettyChars_toJson (header : FrontMatter) :
    Json.prettyChars 0 header.toJson = joinLines header.renderedLines := by
  simp [toJson, Json.prettyChars, Json.prettyMembers, Json.newline,
    Json.ofWord32, joinLines, join, renderedLines, memberLine,
    List.intercalate_cons_cons, List.replicate]

theorem printable_memberLine
    (key : String) {value : List Char} (printable : Json.Printable value) :
    Json.Printable (memberLine key value) :=
  .cons (by decide) <| .cons (by decide) <|
    .append (Json.printable_writeString key) <|
      .cons (by decide) <| .cons (by decide) printable

theorem printable_renderedLines (header : FrontMatter) :
    ∀ line ∈ header.renderedLines, Json.Printable line := by
  have comma : Json.Printable [','] := by decide
  have string (text : String) := Json.printable_writeString text
  have digits := Json.printable_toDigits header.module.toNat
  simp only [renderedLines, List.forall_mem_cons]
  exact ⟨by decide, (printable_memberLine _ (string _)).append comma,
    (printable_memberLine _ digits).append comma,
    (printable_memberLine _ (string _)).append comma,
    printable_memberLine _ (string _), by decide, List.forall_mem_nil _⟩

end FrontMatter

theorem head?_of_isDelimiter
    {line : List Char} (delimits : isDelimiter line = true) :
    line.head? = some '-' := by
  have trimmed : dropTrailing isBlank line = delimiter := by
    simpa [isDelimiter] using delimits
  obtain ⟨blanks, whole⟩ := List.rdropWhile_prefix isBlank line
  rw [← dropTrailing_eq_rdropWhile, trimmed] at whole
  rw [← whole]
  rfl

theorem isDelimiter_delimiter : isDelimiter delimiter = true := by
  decide

/-- The first delimiter behind the opening one ends the header. -/
theorem splitHeader?_of_delimiters
    {first second : List Char} {header : List (List Char)}
    (opens : isDelimiter first = true)
    (inside : ∀ line ∈ header, isDelimiter line = false)
    (closes : isDelimiter second = true) (body : List (List Char)) :
    splitHeader? (first :: (header ++ second :: body)) = some (header, body) := by
  have notDelimiter : ∀ line ∈ header, (!isDelimiter line) = true := by
    simpa using inside
  rw [splitHeader?, if_pos opens, List.dropWhile_append_of_pos notDelimiter,
    List.takeWhile_append_of_pos notDelimiter]
  simp [closes]

theorem isDelimiter_renderedLines (header : FrontMatter) :
    ∀ line ∈ header.renderedLines, isDelimiter line = false := by
  intro line member
  rw [Bool.eq_false_iff]
  intro delimits
  have dash := head?_of_isDelimiter delimits
  simp only [FrontMatter.renderedLines, FrontMatter.memberLine,
    List.mem_cons, List.not_mem_nil, or_false] at member
  rcases member with rfl | rfl | rfl | rfl | rfl | rfl <;>
    simp at dash

namespace Document

/-- Whether the body is a normal one with its closing line feed. -/
def HasNormalBody (document : Document) : Prop :=
  ∃ text, IsNormal text ∧ document.body = String.ofList (text ++ ['\n'])

theorem exists_isNormal_normalizeChars (raw : List Char) :
    ∃ text, IsNormal text ∧
      String.ofList (normalizeChars raw) = String.ofList (text ++ ['\n']) :=
  ⟨_, isNormal_strip raw, rfl⟩

/-- Documents as the library makes them: from the raw transcript of a video that
has an id, or from the content of a file that has a name. -/
inductive Made : Document → Prop
  | ofRaw {entry : VideoEntry} (raw : String) (named : entry.videoId ≠ "") :
      Made (ofRaw entry raw)
  | ofFile {stem : String} (content : String) (named : stem ≠ "") :
      Made (ofFile content stem)

theorem Made.hasNormalBody
    {document : Document} (made : document.Made) : document.HasNormalBody := by
  cases made with
  | ofRaw raw named => exact exists_isNormal_normalizeChars raw.toList
  | ofFile content named =>
      rw [HasNormalBody, Document.ofFile, ParsedDocument.complete,
        ParsedDocument.parse]
      split
      · exact exists_isNormal_normalizeChars content.toList
      · exact exists_isNormal_normalizeChars _

theorem Made.videoId_ne_empty
    {document : Document} (made : document.Made) : document.videoId ≠ "" := by
  cases made with
  | ofRaw raw named => exact named
  | ofFile content named =>
      rw [videoId, Document.ofFile, ParsedDocument.complete]
      dsimp only
      split
      · exact named
      · assumption

/-- The lines of a rendered document: the header between its delimiters, an empty
line, and the body. -/
theorem lines_render
    (document : Document) {text : List Char} (normal : IsNormal text)
    (body : document.body = String.ofList (text ++ ['\n'])) :
    lines document.render.toList =
      delimiter :: (document.header.renderedLines ++
        delimiter :: [] :: pieces '\n' text) := by
  have noFeed : ∀ line ∈ document.header.renderedLines, '\n' ∉ line :=
    fun line member =>
      (document.header.printable_renderedLines line member).not_mem (by decide)
  have noReturn : ∀ line ∈ document.header.renderedLines,
      dropReturn line = line :=
    fun line member => dropReturn_of_not_mem <|
      (document.header.printable_renderedLines line member).not_mem (by decide)
  have noReturnInText : ∀ line ∈ pieces '\n' text, dropReturn line = line :=
    fun line member => dropReturn_of_not_mem fun inside =>
      normal.noReturn (mem_of_mem_pieces member inside)
  have headerPieces : pieces '\n' (joinLines document.header.renderedLines) =
      document.header.renderedLines :=
    pieces_join (by simp [FrontMatter.renderedLines]) noFeed
  have layout : document.render.toList =
      delimiter ++ '\n' :: (joinLines document.header.renderedLines ++
        '\n' :: (delimiter ++ '\n' :: ([] ++ '\n' :: (text ++ '\n' :: [])))) := by
    simp [render, body, document.header.prettyChars_toJson]
  have delimiterLine (rest : List Char) :
      lines (delimiter ++ '\n' :: rest) = delimiter :: lines rest :=
    lines_append_feed_of_not_mem (by decide) rest
  have emptyLine (rest : List Char) :
      lines ([] ++ '\n' :: rest) = [] :: lines rest :=
    lines_append_feed_of_not_mem List.not_mem_nil rest
  rw [layout, delimiterLine, lines_append_feed, headerPieces, delimiterLine,
    emptyLine, lines_append_feed, lines_nil, List.append_nil,
    List.map_congr_left noReturn, List.map_congr_left noReturnInText,
    List.map_id', List.map_id']

theorem return_not_mem_render
    (document : Document) (normalBody : document.HasNormalBody) :
    '\r' ∉ document.render.toList := by
  obtain ⟨text, normal, body⟩ := normalBody
  have header : '\r' ∉ joinLines document.header.renderedLines := by
    intro member
    rcases eq_or_mem_of_mem_join member with isFeed | ⟨line, inLines, inside⟩
    · exact absurd isFeed (by decide)
    · exact (document.header.printable_renderedLines line inLines).not_mem
        (by decide) inside
  simp [render, body, document.header.prettyChars_toJson, header,
    normal.noReturn, delimiter]

/-- Whatever has the lines of a rendered document has its header and its body. -/
theorem parse_of_lines
    (document : Document) (normalBody : document.HasNormalBody) {content : String}
    (same : lines content.toList = lines document.render.toList) :
    ParsedDocument.parse content = ⟨some document.header, document.body⟩ := by
  obtain ⟨text, normal, body⟩ := normalBody
  have header : Json.parse? (joinLines document.header.renderedLines) >>=
      FrontMatter.ofJson? = some document.header := by
    rw [← FrontMatter.prettyChars_toJson,
      Json.parse?_prettyChars document.header.isPlain_toJson]
    exact document.header.ofJson?_toJson
  have bodyLines : normalizeChars (joinLines ([] :: pieces '\n' text)) =
      text ++ ['\n'] := by
    have joined : joinLines ([] :: pieces '\n' text) =
        ['\n'] ++ (text ++ []) := by
      rw [joinLines, join_cons [] (pieces_ne_nil '\n' text), join_pieces]
      simp
    rw [joined]
    exact normalizeChars_of_isNormal normal (by simp) (by simp)
  rw [lines_render document normal body] at same
  rw [ParsedDocument.parse, same,
    splitHeader?_of_delimiters isDelimiter_delimiter
      (isDelimiter_renderedLines document.header) isDelimiter_delimiter]
  simp only [header, bodyLines, ← body]

/-- Whatever has the lines of a rendered document is read as the document. -/
theorem ofFile_of_lines
    (document : Document) (normalBody : document.HasNormalBody)
    (named : document.videoId ≠ "") {content : String}
    (same : lines content.toList = lines document.render.toList)
    (stem : String) : ofFile content stem = document := by
  rw [ofFile, document.parse_of_lines normalBody same, ParsedDocument.complete,
    Option.getD_some]
  have notEmpty : document.header.videoId ≠ "" := named
  rw [if_neg notEmpty]

/-- A document is read back from its file, whatever the name of the file and
whichever of the two line breaks it has, and then rendered as before. -/
theorem ofFile_render
    (document : Document) (made : document.Made) (stem : String) :
    ofFile document.render stem = document ∧
      ofFile (String.ofList (withReturns document.render.toList)) stem =
        document ∧
      (ofFile document.render stem).render = document.render ∧
      (ofFile (String.ofList (withReturns document.render.toList)) stem).render =
        document.render := by
  have normalBody := made.hasNormalBody
  have named := made.videoId_ne_empty
  have plain : ofFile document.render stem = document :=
    ofFile_of_lines document normalBody named rfl stem
  have returned :
      ofFile (String.ofList (withReturns document.render.toList)) stem =
        document := by
    refine ofFile_of_lines document normalBody named ?_ stem
    rw [String.toList_ofList,
      lines_withReturns (document.return_not_mem_render normalBody)]
  exact ⟨plain, returned, by rw [plain], by rw [returned]⟩

/-- A title that ends the header and a body that starts another one do not
mislead the reader. -/
theorem ofFile_render_dashes :
    let entry : VideoEntry := ⟨6, "", "\"\n---\n", "", "a"⟩
    let document := ofRaw entry "\r\n---\r{}\n--- \n  b"
    document.Made ∧ ofFile document.render "c" = document ∧
      ofFile (String.ofList (withReturns document.render.toList)) "c" =
        document ∧
      (ofFile document.render "c").render = document.render ∧
      (ofFile (String.ofList (withReturns document.render.toList)) "c").render =
        document.render := by
  intro entry document
  have made : document.Made := .ofRaw _ (by decide)
  exact ⟨made, ofFile_render document made "c"⟩

end Document

end LectureQuiz
