import LectureQuiz.Toml.Quoted

/-!
# Writing TOML text

A text is written in the first of four forms that can hold it: between double
quotes as it stands, between single quotes, and the same with three quotes. What
no form can hold as it stands is written with escapes.
-/

namespace LectureQuiz.Toml

inductive QuoteStyle where
  | basic
  | literal
  | longBasic
  | longLiteral
  deriving DecidableEq, Repr

/-- A control character that stands for itself in no form. -/
def needsCode (character : Char) : Bool :=
  !isInline character && character != '\n'

/-- The length of the longest run of a character, where `current` of them stand
in front of the text. -/
def longestRun (sought : Char) (current : Nat) : List Char → Nat
  | [] => current
  | character :: rest =>
      if character = sought then longestRun sought (current + 1) rest
      else max current (longestRun sought 0 rest)

def quoteStyle (text : List Char) : QuoteStyle :=
  let coded := text.any needsCode
  let escaped := coded || text.contains '\\'
  let broken := text.contains '\n'
  let doubles := longestRun '"' 0 text
  let singles := longestRun '\'' 0 text
  if !escaped && !broken && doubles = 0 then .basic
  else if !coded && !broken && singles = 0 then .literal
  else if !escaped && doubles ≤ 2 then .longBasic
  else if !coded && singles ≤ 2 then .longLiteral
  else if broken then .longBasic
  else .basic

def upperHexDigit (value : Nat) : Char :=
  (Nat.digitChar value).toUpper

/-- A character between double quotes that is no quote. -/
def escapeChar (keepsBreaks : Bool) (character : Char) : List Char :=
  if character = '\x08' then ['\\', 'b']
  else if character = '\t' then ['\\', 't']
  else if character = '\x0c' then ['\\', 'f']
  else if character = '\r' then ['\\', 'r']
  else if character = '\\' then ['\\', '\\']
  else if character = '\n' then
    if keepsBreaks then ['\n'] else ['\\', 'n']
  else if needsCode character then
    ['\\', 'u', '0', '0', upperHexDigit (character.toNat / 16),
      upperHexDigit (character.toNat % 16)]
  else [character]

/-- The characters between double quotes. A quote stands for itself when fewer
than `allowed` such quotes, of which `run` were written last, stand in front of
it. -/
def escapeBody (keepsBreaks : Bool) (allowed run : Nat) : List Char → List Char
  | [] => []
  | character :: rest =>
      if character = '"' then
        if run < allowed then
          '"' :: escapeBody keepsBreaks allowed (run + 1) rest
        else
          '\\' :: '"' :: escapeBody keepsBreaks allowed 0 rest
      else
        escapeChar keepsBreaks character ++ escapeBody keepsBreaks allowed 0 rest

/-- The line break after three opening quotes, which a text of several lines
has. -/
def openingBreak (text : List Char) : List Char :=
  if text.contains '\n' then ['\n'] else []

/-- The quoted form of a text. -/
def writeText (text : List Char) : List Char :=
  match quoteStyle text with
  | .basic => ['"'] ++ escapeBody false 0 0 text ++ ['"']
  | .literal => ['\''] ++ text ++ ['\'']
  | .longBasic =>
      ['"', '"', '"'] ++ openingBreak text ++ escapeBody true 2 0 text ++
        ['"', '"', '"']
  | .longLiteral =>
      ['\'', '\'', '\''] ++ openingBreak text ++ text ++ ['\'', '\'', '\'']

/-- Texts in brackets. Two or more stand on a line each. -/
def writeTexts : List String → List Char
  | [] => ['[', ']']
  | [text] => '[' :: (writeText text.toList ++ [']'])
  | texts =>
      '[' :: '\n' :: (texts.flatMap fun text =>
        "    ".toList ++ writeText text.toList ++ [',', '\n']) ++ [']']

/-- The line that gives a value to a key. -/
def assignmentLine (key : String) (value : List Char) : List Char :=
  key.toList ++ " = ".toList ++ value ++ ['\n']

/-- The line of a header. -/
def headerLine (brackets : Nat) (key : String) : List Char :=
  List.replicate brackets '[' ++ key.toList ++ List.replicate brackets ']' ++
    ['\n']

end LectureQuiz.Toml
