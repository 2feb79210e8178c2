import LectureQuiz.Text.Lowercase.Table

/-!
# Lower case

The full lower-case form of a text. Every character has its own mapping except
the capital sigma, whose form depends on its neighbours: it is final when a
cased character stands before it and none after it, where case-ignorable
characters in between do not count.
-/

namespace LectureQuiz.Text

def isCased (character : Char) : Bool :=
  casedRanges.covers character.toNat

def isCaseIgnorable (character : Char) : Bool :=
  caseIgnorableRanges.covers character.toNat

/-- The lower-case form of a character on its own. Only the capital I with a dot
above has a form of two characters. -/
def lowercaseChar (character : Char) : List Char :=
  if character.toNat < 0x80 then
    [character.toLower]
  else if character = 'İ' then
    ['i', '\u0307']
  else
    match lowercaseRuns.find? (·.applies character.toNat) with
    | none => [character]
    | some run => [Char.ofNat (character.toNat + run.offset).toNat]

/-- Whether the first character that is not case-ignorable is cased. -/
def startsCased (text : List Char) : Bool :=
  match text.dropWhile isCaseIgnorable with
  | [] => false
  | character :: _ => isCased character

/-- The lower-case form of a text, where `before` holds the characters in front
of it, the nearest first. -/
def lowercaseAfter (before : List Char) : List Char → List Char
  | [] => []
  | character :: rest =>
      let lowered :=
        if character = 'Σ' then
          [if startsCased before && !startsCased rest then 'ς' else 'σ']
        else
          lowercaseChar character
      lowered ++ lowercaseAfter (character :: before) rest

def lowercase (text : List Char) : List Char :=
  lowercaseAfter [] text

/-- The lower-case form of a string. -/
def lowercased (text : String) : String :=
  String.ofList (lowercase text.toList)

end LectureQuiz.Text
