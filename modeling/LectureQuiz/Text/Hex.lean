namespace LectureQuiz.Text

/-- The value of a hexadecimal digit of either case. -/
def hexValue? (digit : Char) : Option Nat :=
  if digit.isDigit then some (digit.toNat - '0'.toNat)
  else if 'a' ≤ digit ∧ digit ≤ 'f' then some (digit.toNat - 'a'.toNat + 10)
  else if 'A' ≤ digit ∧ digit ≤ 'F' then some (digit.toNat - 'A'.toNat + 10)
  else none

/-- The number written by exactly `count` hexadecimal digits, and the text after
them. -/
def hexNumber? (count : Nat) (value : Nat) (text : List Char) :
    Option (Nat × List Char) :=
  match count, text with
  | 0, rest => some (value, rest)
  | _ + 1, [] => none
  | count + 1, digit :: rest => do
      let digitValue ← hexValue? digit
      hexNumber? count (16 * value + digitValue) rest

end LectureQuiz.Text
