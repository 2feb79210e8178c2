import LectureQuiz.Text.Hex
import LectureQuiz.Toml.Value

/-!
# Numbers and dates in TOML

Integers have 64 bits. Digits may be parted by single underscores.
-/

namespace LectureQuiz.Toml

open LectureQuiz.Text

/-- The digits that continue a number, without underscores, and the text after
them. An underscore needs a digit behind it. -/
def moreDigits? (isDigit : Char → Bool) :
    List Char → Option (List Char × List Char)
  | [] => some ([], [])
  | ['_'] => none
  | '_' :: digit :: rest =>
      if isDigit digit then
        (moreDigits? isDigit rest).map fun (digits, after) =>
          (digit :: digits, after)
      else
        none
  | digit :: rest =>
      if isDigit digit then
        (moreDigits? isDigit rest).map fun (digits, after) =>
          (digit :: digits, after)
      else
        some ([], digit :: rest)

/-- At least one digit. -/
def someDigits? (isDigit : Char → Bool) :
    List Char → Option (List Char × List Char)
  | [] => none
  | digit :: rest =>
      if isDigit digit then
        (moreDigits? isDigit rest).map fun (digits, after) =>
          (digit :: digits, after)
      else
        none

/-- Digits of a decimal number: a lone zero, or digits that do not start with
one. -/
def wholeDigits? : List Char → Option (List Char × List Char)
  | '0' :: rest => some (['0'], rest)
  | text => someDigits? Char.isDigit text

/-- The number that digits of a base write. -/
def valueOf (base : Nat) (digits : List Char) : Nat :=
  digits.foldl (fun value digit => base * value + (hexValue? digit).getD 0) 0

/-- The sign in front of a number, and the text after it. -/
def sign : List Char → Option Char × List Char
  | '+' :: rest => (some '+', rest)
  | '-' :: rest => (some '-', rest)
  | text => (none, text)

/-- An integer that fits into 64 bits. -/
def integer? (value : Int) : Option Toml :=
  if Int64.minValue.toInt ≤ value ∧ value ≤ Int64.maxValue.toInt then
    some (.integer value)
  else
    none

/-- A number of a base other than ten, from behind its mark. -/
def basedInteger? (base : Nat) (isDigit : Char → Bool) (text : List Char) :
    Option (Toml × List Char) := do
  let (digits, after) ← someDigits? isDigit text
  return (← integer? (valueOf base digits), after)

/-- A point and digits, or nothing. -/
def fraction? : List Char → Option (List Char × List Char)
  | '.' :: rest => someDigits? Char.isDigit rest
  | text => some ([], text)

/-- An exponent, or nothing. -/
def exponent? : List Char → Option (Option Int × List Char)
  | letter :: rest =>
      if letter = 'e' || letter = 'E' then do
        let (exponentSign, unsigned) := sign rest
        let (digits, after) ← someDigits? Char.isDigit unsigned
        let value : Int := valueOf 10 digits
        return (some (if exponentSign = some '-' then -value else value), after)
      else
        some (none, letter :: rest)
  | [] => some (none, [])

/-- The least number that rounds to infinity in double precision. -/
def overflowBound : Nat :=
  Nat.pow 2 1024 - Nat.pow 2 970

/-- Whether a number given by digits and a power of ten rounds to infinity. Its
number of places decides unless it is close to the bound. -/
def roundsToInfinity (digits : List Char) (power : Int) : Bool :=
  let value := valueOf 10 digits
  let places : Int := (Nat.toDigits 10 value).length + power
  if value = 0 ∨ places < 300 then false
  else if 320 < places then true
  else if 0 ≤ power then overflowBound ≤ value * Nat.pow 10 power.toNat
  else overflowBound * Nat.pow 10 (-power).toNat ≤ value

/-- A number in decimal digits. One with a fraction or an exponent is a float,
which may not exceed the greatest finite one. -/
def decimalNumber? (text : List Char) : Option (Toml × List Char) := do
  let (numberSign, unsigned) := sign text
  let (whole, afterWhole) ← wholeDigits? unsigned
  let (fraction, afterFraction) ← fraction? afterWhole
  let (exponent, after) ← exponent? afterFraction
  if fraction = [] ∧ exponent = none then
    let value : Int := valueOf 10 whole
    return (← integer? (if numberSign = some '-' then -value else value), after)
  else
    let power := exponent.getD 0 - fraction.length
    guard (numberSign = some '-' ∨ !roundsToInfinity (whole ++ fraction) power)
    return (.float (String.ofList (text.take (text.length - after.length))), after)

/-- The number that the text starts with. -/
def number? (text : List Char) : Option (Toml × List Char) :=
  match text with
  | '0' :: 'x' :: rest =>
      basedInteger? 16 (fun digit => (hexValue? digit).isSome) rest
  | '0' :: 'o' :: rest =>
      basedInteger? 8 (fun digit => '0' ≤ digit && digit ≤ '7') rest
  | '0' :: 'b' :: rest =>
      basedInteger? 2 (fun digit => digit == '0' || digit == '1') rest
  | _ =>
      match (sign text).2 with
      | 'i' :: 'n' :: 'f' :: after => some (.float "inf", after)
      | 'n' :: 'a' :: 'n' :: after => some (.float "nan", after)
      | _ => decimalNumber? text

/-- A number of exactly two digits in a range. -/
def twoDigits? (least most : Nat) : List Char → Option (Nat × List Char)
  | tens :: ones :: rest =>
      let value := valueOf 10 [tens, ones]
      if tens.isDigit && ones.isDigit && least ≤ value && value ≤ most then
        some (value, rest)
      else
        none
  | _ => none

/-- The text after a character that it has to start with. -/
def after? (character : Char) : List Char → Option (List Char)
  | first :: rest => if first = character then some rest else none
  | [] => none

def isLeapYear (year : Nat) : Bool :=
  year % 4 == 0 && (year % 100 != 0 || year % 400 == 0)

def daysInMonth (year month : Nat) : Nat :=
  if month = 2 then (if isLeapYear year then 29 else 28)
  else if month = 4 ∨ month = 6 ∨ month = 9 ∨ month = 11 then 30
  else 31

/-- The text after a day of the calendar, written with dashes. -/
def afterDay? (text : List Char) : Option (List Char) := do
  let (century, rest) ← twoDigits? 0 99 text
  let (yearOfCentury, rest) ← twoDigits? 0 99 rest
  let (month, rest) ← after? '-' rest >>= twoDigits? 1 12
  let (day, rest) ← after? '-' rest >>= twoDigits? 1 31
  guard (day ≤ daysInMonth (100 * century + yearOfCentury) month)
  return rest

/-- The text after the fraction of a second, if there is one. -/
def afterSecondFraction : List Char → List Char
  | '.' :: digit :: rest =>
      if digit.isDigit then rest.dropWhile Char.isDigit
      else '.' :: digit :: rest
  | text => text

/-- The text after a time of the day. A minute may have a leap second. -/
def afterTime? (text : List Char) : Option (List Char) := do
  let (_, rest) ← twoDigits? 0 23 text
  let (_, rest) ← after? ':' rest >>= twoDigits? 0 59
  let (_, rest) ← after? ':' rest >>= twoDigits? 0 60
  return afterSecondFraction rest

/-- The text after the distance from universal time. -/
def afterOffset? : List Char → Option (List Char)
  | 'Z' :: rest => some rest
  | 'z' :: rest => some rest
  | mark :: rest =>
      if mark = '+' || mark = '-' then do
        let (_, rest) ← twoDigits? 0 23 rest
        let (_, rest) ← after? ':' rest >>= twoDigits? 0 59
        return rest
      else
        none
  | [] => none

/-- The text after a date with or without a time, or after a time. -/
def afterDate? (text : List Char) : Option (List Char) :=
  match afterDay? text with
  | none => afterTime? text
  | some (delimiter :: rest) =>
      if delimiter = 'T' || delimiter = 't' || delimiter = ' ' then
        match afterTime? rest with
        | none => some (delimiter :: rest)
        | some afterTime => some ((afterOffset? afterTime).getD afterTime)
      else
        some (delimiter :: rest)
  | some [] => some []

/-- The date or time that the text starts with. -/
def date? (text : List Char) : Option (Toml × List Char) :=
  (afterDate? text).map fun after =>
    (.date (String.ofList (text.take (text.length - after.length))), after)

end LectureQuiz.Toml
