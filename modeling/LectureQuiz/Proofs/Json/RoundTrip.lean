import LectureQuiz.Proofs.Json.Written

namespace LectureQuiz.Json

mutual

/-- Whether the value is built from what the reader tells apart: no number that
is kept by its spelling, and no unreadable string. -/
def isPlain : Json → Bool
  | .numeral _ => false
  | .unreadable => false
  | .array elements => plainElements elements
  | .object members => plainMembers members
  | _ => true

def plainElements : List Json → Bool
  | [] => true
  | element :: rest => isPlain element && plainElements rest

def plainMembers : List (String × Json) → Bool
  | [] => true
  | (_, value) :: rest => isPlain value && plainMembers rest

end

theorem plainElements_map
    {alpha : Type} {write : alpha → Json}
    (plain : ∀ value, isPlain (write value) = true) (values : List alpha) :
    plainElements (values.map write) = true := by
  induction values with
  | nil => rfl
  | cons first rest inductionHypothesis =>
      simp [plainElements, plain, inductionHypothesis]

theorem spaces_blank : Spaces [' '] := by
  decide

mutual

theorem written_compactChars :
    ∀ value : Json, isPlain value = true → Written value (compactChars value)
  | .null, _ => .null
  | .boolean true, _ => .yes
  | .boolean false, _ => .no
  | .natural value, _ => .natural value
  | .numeral _, plain => absurd plain (by simp [isPlain])
  | .string text, _ => .string text
  | .array [], _ => .noElements
  | .array (first :: rest), plain =>
      .array (written_compactElements (first :: rest) plain (by simp))
  | .object [], _ => .noMembers
  | .object (first :: rest), plain =>
      .object (written_compactMembers (first :: rest) plain (by simp))
  | .unreadable, plain => absurd plain (by simp [isPlain])

theorem written_compactElements :
    ∀ elements : List Json, plainElements elements = true → elements ≠ [] →
      WrittenElements elements (compactElements elements)
  | [], _, notEmpty => absurd rfl notEmpty
  | [first], plain, _ => by
      simp only [plainElements, Bool.and_true] at plain
      simpa [compactElements] using
        WrittenElements.last spaces_nil (written_compactChars first plain) spaces_nil
  | first :: second :: rest, plain, _ => by
      rw [plainElements, Bool.and_eq_true] at plain
      simpa [compactElements] using
        WrittenElements.more spaces_nil (written_compactChars first plain.1)
          (written_compactElements (second :: rest) plain.2 (by simp))

theorem written_compactMembers :
    ∀ members : List (String × Json),
      plainMembers members = true → members ≠ [] →
      WrittenMembers members (compactMembers members)
  | [], _, notEmpty => absurd rfl notEmpty
  | [(key, value)], plain, _ => by
      simp only [plainMembers, Bool.and_true] at plain
      simpa [compactMembers] using
        WrittenMembers.last spaces_nil spaces_nil
          (written_compactChars value plain) spaces_nil
  | (key, value) :: second :: rest, plain, _ => by
      rw [plainMembers, Bool.and_eq_true] at plain
      simpa [compactMembers] using
        WrittenMembers.more spaces_nil spaces_nil
          (written_compactChars value plain.1)
          (written_compactMembers (second :: rest) plain.2 (by simp))

end

theorem parse?_compactChars
    {value : Json} (plain : isPlain value = true) :
    parse? (compactChars value) = some value :=
  parse?_written (written_compactChars value plain)

theorem spaces_newline (level : Nat) : Spaces (newline level) := by
  intro character member
  rcases List.mem_cons.1 member with rfl | blank
  · rfl
  · rw [List.eq_of_mem_replicate blank]
    rfl

mutual

theorem written_prettyChars :
    ∀ (level : Nat) (value : Json),
      isPlain value = true → Written value (prettyChars level value)
  | _, .null, _ => .null
  | _, .boolean true, _ => .yes
  | _, .boolean false, _ => .no
  | _, .natural value, _ => .natural value
  | _, .numeral _, plain => absurd plain (by simp [isPlain])
  | _, .string text, _ => .string text
  | _, .array [], _ => .noElements
  | level, .array (first :: rest), plain =>
      .array (written_prettyElements level (first :: rest) plain (by simp))
  | _, .object [], _ => .noMembers
  | level, .object (first :: rest), plain =>
      .object (written_prettyMembers level (first :: rest) plain (by simp))
  | _, .unreadable, plain => absurd plain (by simp [isPlain])

/-- The line break in front of the closing bracket belongs to the last element. -/
theorem written_prettyElements :
    ∀ (level : Nat) (elements : List Json),
      plainElements elements = true → elements ≠ [] →
      WrittenElements elements
        (prettyElements (level + 1) elements ++ newline level)
  | _, [], _, notEmpty => absurd rfl notEmpty
  | level, [first], plain, _ => by
      simp only [plainElements, Bool.and_true] at plain
      simpa [prettyElements] using
        WrittenElements.last (spaces_newline (level + 1))
          (written_prettyChars (level + 1) first plain) (spaces_newline level)
  | level, first :: second :: rest, plain, _ => by
      rw [plainElements, Bool.and_eq_true] at plain
      simpa [prettyElements] using
        WrittenElements.more (spaces_newline (level + 1))
          (written_prettyChars (level + 1) first plain.1)
          (written_prettyElements level (second :: rest) plain.2 (by simp))

theorem written_prettyMembers :
    ∀ (level : Nat) (members : List (String × Json)),
      plainMembers members = true → members ≠ [] →
      WrittenMembers members
        (prettyMembers (level + 1) members ++ newline level)
  | _, [], _, notEmpty => absurd rfl notEmpty
  | level, [(key, value)], plain, _ => by
      simp only [plainMembers, Bool.and_true] at plain
      simpa [prettyMembers] using
        WrittenMembers.last (spaces_newline (level + 1)) spaces_blank
          (written_prettyChars (level + 1) value plain) (spaces_newline level)
  | level, (key, value) :: second :: rest, plain, _ => by
      rw [plainMembers, Bool.and_eq_true] at plain
      simpa [prettyMembers] using
        WrittenMembers.more (spaces_newline (level + 1)) spaces_blank
          (written_prettyChars (level + 1) value plain.1)
          (written_prettyMembers level (second :: rest) plain.2 (by simp))

end

theorem parse?_prettyChars
    {value : Json} (plain : isPlain value = true) (level : Nat) :
    parse? (prettyChars level value) = some value :=
  parse?_written (written_prettyChars level value plain)

end LectureQuiz.Json
