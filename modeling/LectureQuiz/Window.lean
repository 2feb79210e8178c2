import LectureQuiz.Text.Blank

/-!
# Windows

A text without stamps is cut into windows of bounded length. A window ends at
its last line feed when that lies far enough from its start, and otherwise at
the bound. The trimmed windows that are not empty are the chunks of the text.
-/

namespace LectureQuiz.Window

open LectureQuiz.Text

/-- The bounds of a window: its greatest length, and the length that a soft break
should come near to. -/
structure Bounds where
  maxLength : UInt64 := 900
  minLength : UInt64 := 600
  deriving DecidableEq, Repr

/-- The greatest number of characters in a window. -/
def Bounds.size (bounds : Bounds) : Nat :=
  max bounds.maxLength.toNat 1

/-- The first offset at which a line feed may end a window. -/
def Bounds.softStart (bounds : Bounds) : Nat :=
  max (bounds.minLength.toNat / 2) 1

/-- The offset of the last line feed. -/
def lastBreak? : List Char → Option Nat
  | [] => none
  | character :: rest =>
      match lastBreak? rest with
      | some offset => some (offset + 1)
      | none => if character = '\n' then some 0 else none

/-- The length of the window that the text starts with. -/
def cutLength (bounds : Bounds) (text : List Char) : Nat :=
  let window := text.take bounds.size
  match lastBreak? window with
  | none => window.length
  | some offset =>
      if bounds.softStart ≤ offset then offset else window.length

theorem Bounds.size_pos (bounds : Bounds) : 0 < bounds.size := by
  unfold Bounds.size
  omega

theorem cutLength_pos
    (bounds : Bounds) {text : List Char} (notEmpty : text ≠ []) :
    0 < cutLength bounds text := by
  have sizePos := bounds.size_pos
  have lengthPos : 0 < (text.take bounds.size).length := by
    have := List.length_pos_iff.2 notEmpty
    rw [List.length_take]
    omega
  have softPos : 0 < bounds.softStart := by
    unfold Bounds.softStart
    omega
  unfold cutLength
  dsimp only
  split
  · exact lengthPos
  · split <;> omega

/-- The windows of a text, in order. Together they are the text. -/
def split (bounds : Bounds) (text : List Char) : List (List Char) :=
  match text with
  | [] => []
  | character :: rest =>
      let length := cutLength bounds (character :: rest)
      (character :: rest).take length ::
        split bounds ((character :: rest).drop length)
termination_by text.length
decreasing_by
  have := cutLength_pos bounds (List.cons_ne_nil character rest)
  simp only [List.length_drop, List.length_cons]
  omega

/-- The trimmed windows that are not empty. -/
def chunks (bounds : Bounds) (text : List Char) : List (List Char) :=
  ((split bounds text).map trim).filter (· ≠ [])

/-! ## The range of positions

A window's end is looked for at its start plus the greatest length. Positions
are words of 64 bits, so this sum has to stay below `2 ^ 64`. -/

/-- The positions at which consecutive windows start. -/
def starts (position : Nat) : List (List Char) → List Nat
  | [] => []
  | window :: rest => position :: starts (position + window.length) rest

/-- Whether every window's end can be computed in 64 bits. -/
def inRange (bounds : Bounds) (text : List Char) : Bool :=
  (starts 0 (split bounds text)).all fun start =>
    start + bounds.size < UInt64.size

end LectureQuiz.Window
