import LectureQuiz.Text.Quoted.Table

namespace LectureQuiz.Text

/-- The lower-case hexadecimal digits of a number. -/
def hexDigits (value : Nat) : List Char :=
  Nat.toDigits 16 value

/-- Whether the character has a mark of its own. -/
def isDrawn (character : Char) : Bool :=
  if character.toNat < 0x80 then
    0x20 ≤ character.toNat && character.toNat != 0x7F
  else
    !undrawnRanges.covers character.toNat

/-- The form of a character between quotes. -/
def quoteChar (character : Char) : List Char :=
  if character = '\x00' then ['\\', '0']
  else if character = '\t' then ['\\', 't']
  else if character = '\n' then ['\\', 'n']
  else if character = '\r' then ['\\', 'r']
  else if character = '"' then ['\\', '"']
  else if character = '\\' then ['\\', '\\']
  else if isDrawn character then [character]
  else ['\\', 'u', '\x7b'] ++ hexDigits character.toNat ++ ['\x7d']

/-- The text between quotes, each character in its quoted form. -/
def quoted (text : String) : String :=
  String.ofList ('"' :: (text.toList.flatMap quoteChar ++ ['"']))

/-- The form of a character in the quoted text of a path, where an apostrophe is
escaped too. -/
def quotePathChar (character : Char) : List Char :=
  if character = '\'' then ['\\', '\''] else quoteChar character

/-- The text of a path between quotes. -/
def quotedPath (text : String) : String :=
  String.ofList ('"' :: (text.toList.flatMap quotePathChar ++ ['"']))

/-- A list of texts in brackets, each of them quoted. -/
def quotedList (texts : List String) : String :=
  "[" ++ ", ".intercalate (texts.map quoted) ++ "]"

end LectureQuiz.Text
