import LectureQuiz.Json.Value
import LectureQuiz.Text.Hex

/-!
# Reading JSON text

`Json.parse?` reads one value that fills a whole text. Values may be nested to
any depth. Blanks between tokens are the four of the format, and no more.
-/

namespace LectureQuiz.Json

def isSpace (character : Char) : Bool :=
  character == ' ' || character == '\n' || character == '\t' ||
    character == '\r'

def skipSpace (text : List Char) : List Char :=
  text.dropWhile isSpace

/-- What a string literal holds: characters, and code units given by escapes. -/
inductive Piece where
  | character (value : Char)
  | unit (value : Nat)
  deriving DecidableEq, Repr

/-- The value of four hexadecimal digits. -/
def unitValue? (first second third fourth : Char) : Option Nat := do
  let first ← Text.hexValue? first
  let second ← Text.hexValue? second
  let third ← Text.hexValue? third
  let fourth ← Text.hexValue? fourth
  return ((first * 16 + second) * 16 + third) * 16 + fourth

/-- The character that a backslash and the given letter stand for. -/
def shortEscape? (letter : Char) : Option Char :=
  if letter = '"' then some '"'
  else if letter = '\\' then some '\\'
  else if letter = '/' then some '/'
  else if letter = 'b' then some '\x08'
  else if letter = 'f' then some '\x0c'
  else if letter = 'n' then some '\n'
  else if letter = 'r' then some '\r'
  else if letter = 't' then some '\t'
  else none

/-- The pieces up to the closing quote, and the text after it. Control
characters may not stand for themselves. -/
def pieces? : List Char → Option (List Piece × List Char)
  | [] => none
  | '"' :: rest => some ([], rest)
  | '\\' :: 'u' :: first :: second :: third :: fourth :: rest => do
      let value ← unitValue? first second third fourth
      let (pieces, after) ← pieces? rest
      return (.unit value :: pieces, after)
  | '\\' :: letter :: rest => do
      let value ← shortEscape? letter
      let (pieces, after) ← pieces? rest
      return (.character value :: pieces, after)
  | character :: rest => do
      guard (0x20 ≤ character.toNat)
      let (pieces, after) ← pieces? rest
      return (.character character :: pieces, after)

def isHighSurrogate (unit : Nat) : Bool :=
  0xD800 ≤ unit && unit < 0xDC00

def isLowSurrogate (unit : Nat) : Bool :=
  0xDC00 ≤ unit && unit < 0xE000

/-- The code point that two surrogates encode. -/
def pairValue (high low : Nat) : Nat :=
  0x10000 + (high - 0xD800) * 0x400 + (low - 0xDC00)

/-- The text of the pieces. A high surrogate needs a low one right behind it,
and a low one may stand nowhere else. -/
def assemble? : List Piece → Option (List Char)
  | [] => some []
  | .character value :: rest => (assemble? rest).map (value :: ·)
  | .unit high :: .unit low :: rest =>
      if isHighSurrogate high then
        if isLowSurrogate low then
          (assemble? rest).map (Char.ofNat (pairValue high low) :: ·)
        else
          none
      else if isLowSurrogate high then
        none
      else
        (assemble? (.unit low :: rest)).map (Char.ofNat high :: ·)
  | .unit value :: rest =>
      if isHighSurrogate value || isLowSurrogate value then none
      else (assemble? rest).map (Char.ofNat value :: ·)

/-- The text of a literal behind its opening quote, where the literal may denote
none, and what follows the literal. -/
def literal? (text : List Char) : Option (Option String × List Char) :=
  (pieces? text).map fun (pieces, after) =>
    ((assemble? pieces).map String.ofList, after)

/-- A zero, or digits that do not start with a zero. -/
def wholePart? : List Char → Option (List Char × List Char)
  | '0' :: rest => some (['0'], rest)
  | first :: rest =>
      if first.isDigit then
        some (first :: rest.takeWhile Char.isDigit, rest.dropWhile Char.isDigit)
      else
        none
  | [] => none

/-- At least one digit. -/
def digits? (text : List Char) : Option (List Char × List Char) :=
  let digits := text.takeWhile Char.isDigit
  if digits = [] then none else some (digits, text.dropWhile Char.isDigit)

/-- A point and digits, or nothing. -/
def fraction? : List Char → Option (List Char × List Char)
  | '.' :: rest => (digits? rest).map fun (digits, after) => ('.' :: digits, after)
  | text => some ([], text)

/-- The letter e with an exponent, or nothing. -/
def exponent? : List Char → Option (List Char × List Char)
  | letter :: rest =>
      if letter = 'e' || letter = 'E' then
        match rest with
        | sign :: unsigned =>
            if sign = '+' || sign = '-' then
              (digits? unsigned).map fun (digits, after) =>
                (letter :: sign :: digits, after)
            else
              (digits? rest).map fun (digits, after) => (letter :: digits, after)
        | [] => none
      else
        some ([], letter :: rest)
  | [] => some ([], [])

/-- The number at the start of the text. -/
def number? (text : List Char) : Option (Json × List Char) := do
  let (sign, unsigned) := match text with
    | '-' :: rest => (['-'], rest)
    | other => ([], other)
  let (whole, afterWhole) ← wholePart? unsigned
  let (fraction, afterFraction) ← fraction? afterWhole
  let (exponent, after) ← exponent? afterFraction
  if sign = [] ∧ fraction = [] ∧ exponent = [] then
    return (.natural (Nat.ofDigitChars 10 whole 0), after)
  else
    return (.numeral (String.ofList (sign ++ whole ++ fraction ++ exponent)), after)

/-- The members of an object, when all their keys can be read. -/
def readableMembers? (members : List (Option String × Json)) :
    Option (List (String × Json)) :=
  members.mapM fun member => member.1.map fun key => (key, member.2)

/-- The object with the given members. -/
def objectOf (members : List (Option String × Json)) : Json :=
  match readableMembers? members with
  | some readable => .object readable
  | none => .unreadable

mutual

/-- The value at the start of the text, and the text after it. -/
def value? (fuel : Nat) (text : List Char) : Option (Json × List Char) :=
  match fuel with
  | 0 => none
  | fuel + 1 =>
      match skipSpace text with
      | '\x7b' :: rest =>
          match skipSpace rest with
          | '\x7d' :: after => some (.object [], after)
          | inner => (members? fuel inner).map fun (members, after) =>
              (objectOf members, after)
      | '[' :: rest =>
          match skipSpace rest with
          | ']' :: after => some (.array [], after)
          | inner => (elements? fuel inner).map fun (elements, after) =>
              (.array elements, after)
      | '"' :: rest => (literal? rest).map fun (literal, after) =>
          match literal with
          | some text => (.string text, after)
          | none => (.unreadable, after)
      | 'n' :: 'u' :: 'l' :: 'l' :: after => some (.null, after)
      | 't' :: 'r' :: 'u' :: 'e' :: after => some (.boolean true, after)
      | 'f' :: 'a' :: 'l' :: 's' :: 'e' :: after => some (.boolean false, after)
      | other => number? other

/-- The elements of an array up to its closing bracket. -/
def elements? (fuel : Nat) (text : List Char) :
    Option (List Json × List Char) :=
  match fuel with
  | 0 => none
  | fuel + 1 => do
      let (element, rest) ← value? fuel text
      match skipSpace rest with
      | ']' :: after => some ([element], after)
      | ',' :: more =>
          (elements? fuel more).map fun (elements, after) =>
            (element :: elements, after)
      | _ => none

/-- The members of an object up to its closing brace. -/
def members? (fuel : Nat) (text : List Char) :
    Option (List (Option String × Json) × List Char) :=
  match fuel with
  | 0 => none
  | fuel + 1 =>
      match skipSpace text with
      | '"' :: keyText => do
          let (key, afterKey) ← literal? keyText
          match skipSpace afterKey with
          | ':' :: valueText => do
              let (value, rest) ← value? fuel valueText
              match skipSpace rest with
              | '\x7d' :: after => some ([(key, value)], after)
              | ',' :: more =>
                  (members? fuel more).map fun (members, after) =>
                    ((key, value) :: members, after)
              | _ => none
          | _ => none
      | _ => none

end

/-- The value that fills the text. Every second step of the reader consumes a
character, which bounds the number of steps. -/
def parse? (text : List Char) : Option Json := do
  let (value, rest) ← value? (2 * text.length + 2) text
  guard (skipSpace rest = [])
  return value

end LectureQuiz.Json
