import LectureQuiz.Proofs.Document
import LectureQuiz.Proofs.Text.BlankEnds

/-!
# Bodies behind a header

A content with a header between two delimiters is read line by line, and its header
tells nothing about its body. The body is the normal form of the text behind the header
unless two carriage returns stand in front of a line feed there: the lines keep one of
the returns, so the two breaks become one. A content without both delimiters is
normalized as it stands.
-/

namespace LectureQuiz

open LectureQuiz.Text

/-- A carriage return at the end of a line is one of its blanks. -/
theorem isDelimiter_dropReturn (line : List Char) :
    isDelimiter (dropReturn line) = isDelimiter line := by
  rw [isDelimiter, isDelimiter, dropTrailing_dropReturn]

/-- The first line is a delimiter, and so is one of the lines behind it. -/
def HasHeader : List (List Char) → Prop
  | [] => False
  | first :: rest => isDelimiter first = true ∧ ∃ line ∈ rest, isDelimiter line = true

theorem splitHeader?_eq_none_iff {lines : List (List Char)} :
    splitHeader? lines = none ↔ ¬HasHeader lines := by
  cases lines with
  | nil => exact iff_of_true rfl not_false
  | cons first rest =>
      rw [splitHeader?, HasHeader]
      by_cases opens : isDelimiter first = true
      · rw [if_pos opens]
        cases behind : rest.dropWhile (!isDelimiter ·) with
        | nil =>
            rw [List.dropWhile_eq_nil_iff] at behind
            simpa [opens] using behind
        | cons closing body =>
            have notAll : rest.dropWhile (!isDelimiter ·) ≠ [] :=
              behind ▸ List.cons_ne_nil closing body
            rw [Ne, List.dropWhile_eq_nil_iff] at notAll
            simpa [opens] using notAll
      · simp [opens]

/-- The parts of a content with a header: lines between two delimiters, and the text
behind them. -/
structure HeadedText where
  opening : List Char
  header : List (List Char)
  closing : List Char
  rest : String
  opens : isDelimiter opening = true
  closes : isDelimiter closing = true
  inside : ∀ line ∈ header, isDelimiter line = false
  single : ∀ line ∈ opening :: closing :: header, '\n' ∉ line

namespace HeadedText

def content (text : HeadedText) : String :=
  String.ofList (text.opening ++ '\n' :: (joinLines text.header ++
    '\n' :: (text.closing ++ '\n' :: text.rest.toList)))

/-- The lines between the delimiters as they are found. When the header has no line,
there is an empty one. -/
def foundHeader (text : HeadedText) : List (List Char) :=
  (pieces '\n' (joinLines text.header)).map dropReturn

variable (text : HeadedText)

theorem foundHeader_eq :
    text.foundHeader = if text.header = [] then [[]] else text.header.map dropReturn := by
  rw [foundHeader]
  split
  · rename_i nothing
    rw [nothing]
    rfl
  · rename_i notEmpty
    have single : ∀ line ∈ text.header, '\n' ∉ line := fun line member =>
      text.single line (List.mem_cons_of_mem _ (List.mem_cons_of_mem _ member))
    rw [joinLines, pieces_join notEmpty single]

theorem joinLines_foundHeader :
    joinLines text.foundHeader = joinLines (text.header.map dropReturn) := by
  rw [foundHeader_eq]
  split
  · rename_i nothing
    rw [nothing]
    rfl
  · rfl

theorem isDelimiter_foundHeader :
    ∀ line ∈ text.foundHeader, isDelimiter line = false := by
  rw [foundHeader_eq]
  split
  · decide
  · intro line member
    obtain ⟨given, inHeader, rfl⟩ := List.mem_map.1 member
    rw [isDelimiter_dropReturn, text.inside given inHeader]

theorem lines_content :
    lines text.content.toList =
      dropReturn text.opening :: (text.foundHeader ++
        dropReturn text.closing :: lines text.rest.toList) := by
  have openingSingle : '\n' ∉ text.opening := text.single _ List.mem_cons_self
  have closingSingle : '\n' ∉ text.closing :=
    text.single _ (List.mem_cons_of_mem _ List.mem_cons_self)
  rw [content, String.toList_ofList, lines_append_feed_of_not_mem openingSingle,
    lines_append_feed, lines_append_feed_of_not_mem closingSingle, foundHeader]

/-- The header is read from its lines alone, and the body from the text behind them. -/
theorem parse_content :
    ParsedDocument.parse text.content =
      ⟨Json.parse? (joinLines (text.header.map dropReturn)) >>= FrontMatter.ofJson?,
        String.ofList (normalizeChars (withFeeds text.rest.toList))⟩ := by
  have opens : isDelimiter (dropReturn text.opening) = true := by
    rw [isDelimiter_dropReturn, text.opens]
  have closes : isDelimiter (dropReturn text.closing) = true := by
    rw [isDelimiter_dropReturn, text.closes]
  rw [ParsedDocument.parse, lines_content,
    splitHeader?_of_delimiters opens text.isDelimiter_foundHeader closes]
  dsimp only
  rw [joinLines_foundHeader, normalizeChars_joinLines_lines]

/-- The body behind a header is the normal form of the text there exactly if no two
carriage returns stand in front of a line feed between the blank ends of the text. -/
theorem body_eq_normalize_iff :
    (ParsedDocument.parse text.content).body = normalize text.rest ↔
      ¬['\r', '\r', '\n'] <:+: trim text.rest.toList := by
  rw [parse_content, Text.normalize, String.ofList_inj, normalizeChars_withFeeds_iff]

end HeadedText

namespace ParsedDocument

/-- A content is read either as a header and the text behind it or as a body. The header
tells nothing about the body, and the body is the normal form of its text but for
doubled carriage returns behind a header. -/
theorem parse_headed_and_plain (text : HeadedText) (content : String) :
    ((parse text.content).header =
          (Json.parse? (joinLines (text.header.map dropReturn)) >>=
            FrontMatter.ofJson?) ∧
        (parse text.content).body =
          String.ofList (normalizeChars (withFeeds text.rest.toList)) ∧
        ((parse text.content).body = normalize text.rest ↔
          ¬['\r', '\r', '\n'] <:+: trim text.rest.toList)) ∧
      (¬HasHeader (lines content.toList) → parse content = ⟨none, normalize content⟩) := by
  refine ⟨?headed, fun headless => ?plain⟩
  case headed =>
    exact ⟨by rw [text.parse_content], by rw [text.parse_content],
      text.body_eq_normalize_iff⟩
  case plain =>
    rw [parse, splitHeader?_eq_none_iff.2 headless]

/-- A header that is no JSON, above a text with both kinds of breaks. -/
def brokenHeader : HeadedText where
  opening := ['-', '-', '-', ' ', '\r']
  header := [['\x7b', 't'], ['-', '-']]
  closing := delimiter
  rest := "a \rb\r\n\n"
  opens := by decide
  closes := by decide
  inside := by decide
  single := by decide

theorem parse_brokenHeader_and_unclosed :
    parse "--- \r\n\x7bt\n--\n---\na \rb\r\n\n" = ⟨none, "a\nb\n"⟩ ∧
      parse "---\na\r\r\nb" = ⟨none, "---\na\n\nb\n"⟩ := by
  have isContent : brokenHeader.content = "--- \r\n\x7bt\n--\n---\na \rb\r\n\n" := by
    decide +kernel
  obtain ⟨⟨header, body, _⟩, plain⟩ :=
    parse_headed_and_plain brokenHeader "---\na\r\r\nb"
  rw [isContent] at header body
  have broken : (Json.parse? (joinLines (brokenHeader.header.map dropReturn)) >>=
      FrontMatter.ofJson?) = none := by decide +kernel
  have normal : String.ofList (normalizeChars (withFeeds brokenHeader.rest.toList)) =
      "a\nb\n" := by decide +kernel
  have headless : ¬HasHeader (lines "---\na\r\r\nb".toList) :=
    splitHeader?_eq_none_iff.1 (by decide +kernel)
  have normalPlain : normalize "---\na\r\r\nb" = "---\na\n\nb\n" := by decide +kernel
  constructor
  · rw [broken] at header
    rw [normal] at body
    cases found : parse "--- \r\n\x7bt\n--\n---\na \rb\r\n\n"
    rw [found] at header body
    exact congrArg₂ mk header body
  · rw [plain headless, normalPlain]

/-- Behind a header the two breaks of a doubled carriage return become one. -/
def doubledReturn : HeadedText where
  opening := delimiter
  header := ["\x7b\"title\":\"T\"\x7d".toList]
  closing := delimiter
  rest := "a\r\r\nb"
  opens := by decide
  closes := by decide
  inside := by decide
  single := by decide

theorem body_of_doubledReturn :
    doubledReturn.content = "---\n\x7b\"title\":\"T\"\x7d\n---\na\r\r\nb" ∧
      (parse doubledReturn.content).body = "a\nb\n" ∧
      normalize doubledReturn.rest = "a\n\nb\n" := by
  decide +kernel

end ParsedDocument

end LectureQuiz
