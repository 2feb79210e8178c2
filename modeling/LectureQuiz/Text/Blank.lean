import LectureQuiz.Text.CodeRanges

/-!
# Blank characters and trimming

A character is blank when it has the property `White_Space`. Trimming is
defined for any property of list elements, and the blank case is the one that
the rest of the library uses.
-/

namespace LectureQuiz.Text

/-- The code points with the property `White_Space`. -/
def blankRanges : CodeRanges :=
  [(0x9, 0xD), (0x20, 0x20), (0x85, 0x85), (0xA0, 0xA0), (0x1680, 0x1680),
    (0x2000, 0x200A), (0x2028, 0x2029), (0x202F, 0x202F), (0x205F, 0x205F),
    (0x3000, 0x3000)]

def isBlank (character : Char) : Bool :=
  blankRanges.covers character.toNat

section Trimming

variable {alpha : Type}

/-- Drops the longest end whose elements all satisfy the property. -/
def dropTrailing (drop : alpha → Bool) (items : List alpha) : List alpha :=
  (items.reverse.dropWhile drop).reverse

/-- Drops the longest start and the longest end whose elements all satisfy the
property. -/
def strip (drop : alpha → Bool) (items : List alpha) : List alpha :=
  dropTrailing drop (items.dropWhile drop)

@[simp] theorem dropTrailing_nil (drop : alpha → Bool) :
    dropTrailing drop [] = [] := rfl

@[simp] theorem strip_nil (drop : alpha → Bool) : strip drop [] = [] := rfl

/-- What is dropped at the end is the rest of the list. -/
theorem dropTrailing_append_takeWhile
    (drop : alpha → Bool) (items : List alpha) :
    dropTrailing drop items ++ (items.reverse.takeWhile drop).reverse = items := by
  rw [dropTrailing, ← List.reverse_append, List.takeWhile_append_dropWhile,
    List.reverse_reverse]

end Trimming

/-- A text without the blank characters at its ends. -/
def trim (text : List Char) : List Char :=
  strip isBlank text

/-- Whether a text has blank characters only. -/
def isBlankText (text : String) : Bool :=
  text.toList.all isBlank

/-- The trimmed form of a string. -/
def trimmed (text : String) : String :=
  String.ofList (trim text.toList)

end LectureQuiz.Text
