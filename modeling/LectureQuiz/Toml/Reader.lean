import LectureQuiz.Toml.Assembly
import LectureQuiz.Toml.Number
import LectureQuiz.Toml.Quoted

/-!
# Reading TOML documents

`Toml.parse?` reads version 1.0 of the format. Arrays and inline tables may be
nested in each other up to a fixed depth, and a key may have as many parts.
-/

namespace LectureQuiz.Toml

def skipSpace (text : List Char) : List Char :=
  text.dropWhile isSpace

/-- Skips blanks, line breaks and comments. The flag says that the text starts
inside a comment. -/
def skipTrivia (insideComment : Bool) : List Char → List Char
  | [] => []
  | '\r' :: '\n' :: rest => skipTrivia false rest
  | character :: rest =>
      if character = '\n' then skipTrivia false rest
      else if insideComment then
        if isInline character then skipTrivia true rest else character :: rest
      else if isSpace character then skipTrivia false rest
      else if character = '#' then skipTrivia true rest
      else character :: rest

/-- The text of the next line, when nothing but blanks and a comment is left of
this one. -/
def endLine? (text : List Char) : Option (List Char) :=
  let rest := match skipSpace text with
    | '#' :: comment => comment.dropWhile isInline
    | other => other
  match rest with
  | [] => some []
  | '\n' :: next => some next
  | '\r' :: '\n' :: next => some next
  | _ => none

/-- One more than the greatest depth of nesting, and than the greatest number of
parts of a key. -/
def depthLimit : Nat := 80

def isBareKeyChar (character : Char) : Bool :=
  character.isAlphanum || character == '_' || character == '-'

/-- One part of a key: quoted on one line, or bare. -/
def keyPart? : List Char → Option (String × List Char)
  | '"' :: rest =>
      (basicBody? (rest.length + 1) rest).map fun (key, after) =>
        (String.ofList key, after)
  | '\'' :: rest =>
      (literalBody? rest).map fun (key, after) => (String.ofList key, after)
  | text =>
      let key := text.takeWhile isBareKeyChar
      if key = [] then none
      else some (String.ofList key, text.dropWhile isBareKeyChar)

/-- The parts of a key, with blanks around them. -/
def keyParts? (fuel : Nat) (text : List Char) :
    Option (List String × List Char) :=
  match fuel with
  | 0 => none
  | fuel + 1 => do
      let (part, rest) ← keyPart? (skipSpace text)
      match skipSpace rest with
      | '.' :: more =>
          (keyParts? fuel more).map fun (parts, after) => (part :: parts, after)
      | after => some ([part], after)

/-- The key that the text starts with. -/
def key? (text : List Char) : Option (DottedKey × List Char) := do
  let (parts, after) ← keyParts? (text.length + 1) text
  guard (parts.length < depthLimit)
  let key ← parts.getLast?
  return (⟨parts.dropLast, key⟩, after)

mutual

/-- The value that the text starts with, where `depth` levels of nesting are
allowed. -/
def value? (fuel depth : Nat) (text : List Char) :
    Option (Toml × List Char) :=
  match fuel with
  | 0 => none
  | fuel + 1 =>
      match text with
      | '[' :: rest => do
          guard (0 < depth)
          let (elements, after) ← elements? fuel (depth - 1) (skipTrivia false rest)
          return (.array elements, after)
      | '\x7b' :: rest => do
          guard (0 < depth)
          match skipSpace rest with
          | '\x7d' :: after => return (.table [], after)
          | inner =>
              let (pairs, after) ← pairs? fuel (depth - 1) inner
              return (← inlineTable? pairs, after)
      | 't' :: 'r' :: 'u' :: 'e' :: after => some (.boolean true, after)
      | 'f' :: 'a' :: 'l' :: 's' :: 'e' :: after => some (.boolean false, after)
      | character :: _ =>
          if character = '"' || character = '\'' then
            (quoted? text).map fun (value, after) =>
              (.string (String.ofList value), after)
          else
            (date? text).or (number? text)
      | [] => none

/-- The elements of an array up to its closing bracket, which may follow a
comma. -/
def elements? (fuel depth : Nat) (text : List Char) :
    Option (List Toml × List Char) :=
  match fuel with
  | 0 => none
  | fuel + 1 =>
      match text with
      | ']' :: after => some ([], after)
      | _ => do
          let (element, rest) ← value? fuel depth text
          match skipTrivia false rest with
          | ']' :: after => some ([element], after)
          | ',' :: more =>
              (elements? fuel depth (skipTrivia false more)).map
                fun (elements, after) => (element :: elements, after)
          | _ => none

/-- The pairs of an inline table up to its closing brace. -/
def pairs? (fuel depth : Nat) (text : List Char) :
    Option (List (DottedKey × Toml) × List Char) :=
  match fuel with
  | 0 => none
  | fuel + 1 => do
      let (key, afterKey) ← key? text
      match afterKey with
      | '=' :: valueText => do
          let (value, rest) ← value? fuel depth (skipSpace valueText)
          match skipSpace rest with
          | '\x7d' :: after => some ([(key, value)], after)
          | ',' :: more =>
              (pairs? fuel depth more).map fun (pairs, after) =>
                ((key, value) :: pairs, after)
          | _ => none
      | _ => none

end

/-- A header between brackets, from behind the opening ones. -/
def header? (closing : List Char) (text : List Char) :
    Option (DottedKey × List Char) := do
  let (key, rest) ← key? text
  let after ← closing.isPrefixOf? rest
  return (key, ← endLine? after)

/-- A key with its value, up to the end of the line. -/
def assignment? (text : List Char) : Option (Statement × List Char) := do
  let (key, afterKey) ← key? text
  match afterKey with
  | '=' :: valueText =>
      let (value, rest) ←
        value? (2 * text.length + 2) (depthLimit - 1) (skipSpace valueText)
      return (.assign key value, ← endLine? rest)
  | _ => none

/-- The statement that a line holds, if it is no comment or blank line, and the
text of the next line. -/
def line? (text : List Char) : Option (Option Statement × List Char) :=
  match skipSpace text with
  | '[' :: '[' :: rest =>
      (header? [']', ']'] rest).map fun (key, next) =>
        (some (.openElement key), next)
  | '[' :: rest =>
      (header? [']'] rest).map fun (key, next) => (some (.openTable key), next)
  | other =>
      match endLine? other with
      | some next => some (none, next)
      | none =>
          (assignment? other).map fun (statement, next) => (some statement, next)

/-- The statements of a document. -/
def statements? (fuel : Nat) (text : List Char) : Option (List Statement) :=
  match fuel, text with
  | _, [] => some []
  | 0, _ => none
  | fuel + 1, text => do
      let (statement, next) ← line? text
      let rest ← statements? fuel next
      return statement.toList ++ rest

/-- A text without a byte order mark in front. -/
def dropMark : List Char → List Char
  | '\uFEFF' :: rest => rest
  | text => text

/-- The table that a document describes. -/
def parse? (content : String) : Option Toml :=
  statements? (content.toList.length + 1) (dropMark content.toList) >>= assemble?

end LectureQuiz.Toml
