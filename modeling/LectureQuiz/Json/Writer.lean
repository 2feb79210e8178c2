import LectureQuiz.Json.Value

/-!
# Writing JSON text

Two layouts: the compact one has no blanks, the pretty one puts every element and
member on a line of its own, indented by two blanks for each level.
-/

namespace LectureQuiz.Json

def hexDigit (value : Nat) : Char :=
  Nat.digitChar value

/-- The form of a character in a string literal. Only quotes, backslashes and
control characters are escaped. -/
def escapeChar (character : Char) : List Char :=
  if character = '"' then ['\\', '"']
  else if character = '\\' then ['\\', '\\']
  else if character = '\x08' then ['\\', 'b']
  else if character = '\t' then ['\\', 't']
  else if character = '\n' then ['\\', 'n']
  else if character = '\x0c' then ['\\', 'f']
  else if character = '\r' then ['\\', 'r']
  else if character.toNat < 0x20 then
    ['\\', 'u', '0', '0', hexDigit (character.toNat / 16),
      hexDigit (character.toNat % 16)]
  else [character]

def writeString (text : String) : List Char :=
  '"' :: (text.toList.flatMap escapeChar ++ ['"'])

mutual

def compactChars : Json → List Char
  | .null => "null".toList
  | .boolean true => "true".toList
  | .boolean false => "false".toList
  | .natural value => Nat.toDigits 10 value
  | .numeral spelling => spelling.toList
  | .string text => writeString text
  | .array elements => '[' :: (compactElements elements ++ [']'])
  | .object members => '\x7b' :: (compactMembers members ++ ['\x7d'])
  | .unreadable => "null".toList

def compactElements : List Json → List Char
  | [] => []
  | [element] => compactChars element
  | element :: rest => compactChars element ++ ',' :: compactElements rest

def compactMembers : List (String × Json) → List Char
  | [] => []
  | [(key, value)] => writeString key ++ ':' :: compactChars value
  | (key, value) :: rest =>
      writeString key ++ ':' :: (compactChars value ++ ',' :: compactMembers rest)

end

/-- A line feed and the indentation of a level. -/
def newline (level : Nat) : List Char :=
  '\n' :: List.replicate (2 * level) ' '

mutual

def prettyChars (level : Nat) : Json → List Char
  | .array (element :: rest) =>
      '[' :: (prettyElements (level + 1) (element :: rest) ++
        newline level ++ [']'])
  | .object (member :: rest) =>
      '\x7b' :: (prettyMembers (level + 1) (member :: rest) ++
        newline level ++ ['\x7d'])
  | .array [] => ['[', ']']
  | .object [] => ['\x7b', '\x7d']
  | .null => "null".toList
  | .boolean true => "true".toList
  | .boolean false => "false".toList
  | .natural value => Nat.toDigits 10 value
  | .numeral spelling => spelling.toList
  | .string text => writeString text
  | .unreadable => "null".toList

def prettyElements (level : Nat) : List Json → List Char
  | [] => []
  | [element] => newline level ++ prettyChars level element
  | element :: rest =>
      newline level ++ prettyChars level element ++ ',' ::
        prettyElements level rest

def prettyMembers (level : Nat) : List (String × Json) → List Char
  | [] => []
  | [(key, value)] =>
      newline level ++ writeString key ++ ':' :: ' ' :: prettyChars level value
  | (key, value) :: rest =>
      newline level ++ writeString key ++ ':' :: ' ' ::
        (prettyChars level value ++ ',' :: prettyMembers level rest)

end

/-- The indented text of a value. -/
def pretty (value : Json) : String :=
  String.ofList (prettyChars 0 value)

end LectureQuiz.Json
