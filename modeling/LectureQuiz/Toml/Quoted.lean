import LectureQuiz.Text.Hex

/-!
# Quoted text in TOML

A text is written on one line or on several, and either with escapes between
double quotes or as it stands between single quotes.
-/

namespace LectureQuiz.Toml

open LectureQuiz.Text

/-- A blank inside a line. -/
def isSpace (character : Char) : Bool :=
  character == ' ' || character == '\t'

/-- A character that may stand in a line: no control character but the tab. -/
def isInline (character : Char) : Bool :=
  character == '\t' || (0x20 ≤ character.toNat && character.toNat != 0x7F)

/-- The character with the given code point, when there is one. -/
def scalar? (code : Nat) : Option Char :=
  if code.isValidChar then some (Char.ofNat code) else none

/-- The character that an escape stands for, from behind its backslash, and the
text after it. -/
def escape? : List Char → Option (Char × List Char)
  | 'b' :: rest => some ('\x08', rest)
  | 't' :: rest => some ('\t', rest)
  | 'n' :: rest => some ('\n', rest)
  | 'f' :: rest => some ('\x0c', rest)
  | 'r' :: rest => some ('\r', rest)
  | '"' :: rest => some ('"', rest)
  | '\\' :: rest => some ('\\', rest)
  | 'u' :: rest => do
      let (code, after) ← hexNumber? 4 0 rest
      return (← scalar? code, after)
  | 'U' :: rest => do
      let (code, after) ← hexNumber? 8 0 rest
      return (← scalar? code, after)
  | _ => none

/-- The characters up to the closing double quote. -/
def basicBody? (fuel : Nat) (text : List Char) :
    Option (List Char × List Char) :=
  match fuel, text with
  | 0, _ => none
  | _, [] => none
  | _, '"' :: rest => some ([], rest)
  | fuel + 1, '\\' :: rest => do
      let (character, afterEscape) ← escape? rest
      let (body, after) ← basicBody? fuel afterEscape
      return (character :: body, after)
  | fuel + 1, character :: rest => do
      guard (isInline character)
      let (body, after) ← basicBody? fuel rest
      return (character :: body, after)

/-- The characters up to the closing single quote. -/
def literalBody? : List Char → Option (List Char × List Char)
  | [] => none
  | '\'' :: rest => some ([], rest)
  | character :: rest => do
      guard (isInline character)
      let (body, after) ← literalBody? rest
      return (character :: body, after)

/-- Up to two quotes in front of the closing three belong to the text. -/
def extraQuotes (quote : Char) : List Char → List Char × List Char
  | first :: second :: rest =>
      if first = quote then
        if second = quote then ([quote, quote], rest)
        else ([quote], second :: rest)
      else
        ([], first :: second :: rest)
  | [first] => if first = quote then ([quote], []) else ([], [first])
  | [] => ([], [])

/-- Skips blanks and line breaks. -/
def skipBreaks : List Char → List Char
  | '\r' :: '\n' :: rest => skipBreaks rest
  | character :: rest =>
      if isSpace character || character = '\n' then skipBreaks rest
      else character :: rest
  | [] => []

/-- Whether the text starts with a line break. -/
def startsWithBreak : List Char → Bool
  | '\n' :: _ => true
  | '\r' :: '\n' :: _ => true
  | _ => false

/-- The text after a line break that it starts with. -/
def dropBreak : List Char → List Char
  | '\n' :: rest => rest
  | '\r' :: '\n' :: rest => rest
  | text => text

/-- The characters up to three closing double quotes. A backslash at the end of a
line joins it with the next line that is not blank. -/
def longBasicBody? (fuel : Nat) (text : List Char) :
    Option (List Char × List Char) :=
  match fuel, text with
  | 0, _ => none
  | _, [] => none
  | _, '"' :: '"' :: '"' :: rest => some (extraQuotes '"' rest)
  | fuel + 1, '\\' :: rest =>
      if startsWithBreak (rest.dropWhile isSpace) then
        longBasicBody? fuel (skipBreaks rest)
      else do
        let (character, afterEscape) ← escape? rest
        let (body, after) ← longBasicBody? fuel afterEscape
        return (character :: body, after)
  | fuel + 1, '\r' :: '\n' :: rest => do
      let (body, after) ← longBasicBody? fuel rest
      return ('\n' :: body, after)
  | fuel + 1, character :: rest => do
      guard (isInline character || character = '\n')
      let (body, after) ← longBasicBody? fuel rest
      return (character :: body, after)

/-- The characters up to three closing single quotes. -/
def longLiteralBody? : List Char → Option (List Char × List Char)
  | [] => none
  | '\'' :: '\'' :: '\'' :: rest => some (extraQuotes '\'' rest)
  | '\r' :: '\n' :: rest => do
      let (body, after) ← longLiteralBody? rest
      return ('\n' :: body, after)
  | character :: rest => do
      guard (isInline character || character = '\n')
      let (body, after) ← longLiteralBody? rest
      return (character :: body, after)

/-- The quoted text that the text starts with, and what follows it. A line break
right after three opening quotes does not count. -/
def quoted? : List Char → Option (List Char × List Char)
  | '"' :: '"' :: '"' :: rest =>
      longBasicBody? (rest.length + 1) (dropBreak rest)
  | '"' :: rest => basicBody? (rest.length + 1) rest
  | '\'' :: '\'' :: '\'' :: rest => longLiteralBody? (dropBreak rest)
  | '\'' :: rest => literalBody? rest
  | _ => none

end LectureQuiz.Toml
