import LectureQuiz.Text.Digit

/-!
# Time stamps

A stamp is written `[h:]mm:ss` somewhere in a line: seconds with two digits, and
one or two digits for every field in front of them. The leftmost stamp of a line
counts, and a stamp with hours wins over the same stamp read without them.
-/

namespace LectureQuiz

open LectureQuiz.Text

/-- The digits of a stamp, field by field. -/
structure Timestamp where
  hours : Option (List Char)
  minutes : List Char
  seconds : List Char
  deriving DecidableEq, Repr

namespace Timestamp

/-- One or two digits and a colon, and the text after them. -/
def leadingField? : List Char → Option (List Char × List Char)
  | first :: ':' :: rest =>
      if isDecimalDigit first then some ([first], rest) else none
  | first :: second :: ':' :: rest =>
      if isDecimalDigit first && isDecimalDigit second then
        some ([first, second], rest)
      else
        none
  | _ => none

/-- The two digits that the text starts with. -/
def secondsField? : List Char → Option (List Char)
  | first :: second :: _ =>
      if isDecimalDigit first && isDecimalDigit second then
        some [first, second]
      else
        none
  | _ => none

/-- Minutes and seconds at the start of the text. -/
def shortAt? (text : List Char) : Option Timestamp := do
  let (minutes, rest) ← leadingField? text
  let seconds ← secondsField? rest
  return ⟨none, minutes, seconds⟩

/-- Hours, minutes and seconds at the start of the text. -/
def longAt? (text : List Char) : Option Timestamp := do
  let (hours, rest) ← leadingField? text
  let stamp ← shortAt? rest
  return { stamp with hours := some hours }

/-- The stamp at the start of the text. -/
def startsAt? (text : List Char) : Option Timestamp :=
  (longAt? text).or (shortAt? text)

/-- The leftmost stamp of a line. -/
def find? : List Char → Option Timestamp
  | [] => none
  | character :: rest =>
      (startsAt? (character :: rest)).or (find? rest)

/-- The value of a field. Only ASCII digits have a value here; a field with a
digit of another script counts as zero. -/
def fieldValue (digits : List Char) : UInt32 :=
  ((decimal? digits).getD 0).toUInt32

/-- The seconds from the start of the recording. -/
def total (stamp : Timestamp) : UInt32 :=
  fieldValue (stamp.hours.getD []) * 3600 + fieldValue stamp.minutes * 60 +
    fieldValue stamp.seconds

end Timestamp

/-- The time that the leftmost stamp of a line gives, if it has one. -/
def stampOf? (line : List Char) : Option UInt32 :=
  (Timestamp.find? line).map Timestamp.total

end LectureQuiz
