import LectureQuiz.Proofs.Json.Grammar
import LectureQuiz.Proofs.Json.Literal

namespace LectureQuiz.Json

mutual

/-- The text writes the value, with no blanks around it. -/
inductive Written : Json → List Char → Prop
  | null : Written .null "null".toList
  | yes : Written (.boolean true) "true".toList
  | no : Written (.boolean false) "false".toList
  | natural (value : Nat) : Written (.natural value) (Nat.toDigits 10 value)
  | string (text : String) : Written (.string text) (writeString text)
  | noElements : Written (.array []) ['[', ']']
  | array {elements : List Json} {body : List Char} :
      WrittenElements elements body →
      Written (.array elements) ('[' :: (body ++ [']']))
  | noMembers : Written (.object []) ['\x7b', '\x7d']
  | object {members : List (String × Json)} {body : List Char} :
      WrittenMembers members body →
      Written (.object members) ('\x7b' :: (body ++ ['\x7d']))

/-- The text writes the elements between the brackets of an array. -/
inductive WrittenElements : List Json → List Char → Prop
  | last {element : Json} {before text after : List Char} :
      Spaces before → Written element text → Spaces after →
      WrittenElements [element] (before ++ (text ++ after))
  | more {element : Json} {rest : List Json} {before text body : List Char} :
      Spaces before → Written element text → WrittenElements rest body →
      WrittenElements (element :: rest) (before ++ (text ++ ',' :: body))

/-- The text writes the members between the braces of an object. -/
inductive WrittenMembers : List (String × Json) → List Char → Prop
  | last {key : String} {value : Json} {before between text after : List Char} :
      Spaces before → Spaces between → Written value text → Spaces after →
      WrittenMembers [(key, value)]
        (before ++ (writeString key ++ ':' :: (between ++ (text ++ after))))
  | more {key : String} {value : Json} {rest : List (String × Json)}
      {before between text body : List Char} :
      Spaces before → Spaces between → Written value text →
      WrittenMembers rest body →
      WrittenMembers ((key, value) :: rest)
        (before ++ (writeString key ++ ':' :: (between ++ (text ++ ',' :: body))))

end

/-- A value's key that could be read makes the object readable. -/
theorem objectOf_readable (members : List (String × Json)) :
    objectOf (members.map fun member => (some member.1, member.2)) =
      .object members := by
  have readable : readableMembers?
      (members.map fun member => (some member.1, member.2)) = some members := by
    induction members with
    | nil => rfl
    | cons first rest inductionHypothesis =>
        simp only [readableMembers?] at inductionHypothesis
        simp [readableMembers?, inductionHypothesis]
  simp [objectOf, readable]

/-- An object is spelled by its members when all their keys are texts. -/
theorem spelled_object
    {members : List (String × Json)} {body : List Char}
    (spelled : SpelledMembers (members.map fun member => (some member.1, member.2)) body) :
    Spelled (.object members) ('\x7b' :: (body ++ ['\x7d'])) := by
  rw [← objectOf_readable members]
  exact .object spelled

mutual

theorem Written.spelled {value : Json} {text : List Char} :
    Written value text → Spelled value text
  | .null => .null
  | .yes => .yes
  | .no => .no
  | .natural value => .number (isNumber_toDigits value)
  | .string text => .string (quoted_writeString text)
  | .noElements => .noElements spaces_nil
  | .array elements => .array elements.spelled
  | .noMembers => .noMembers spaces_nil
  | .object members => spelled_object members.spelled

theorem WrittenElements.spelled {elements : List Json} {body : List Char} :
    WrittenElements elements body → SpelledElements elements body
  | .last before element after => .last before element.spelled after
  | .more before element others => .more before element.spelled spaces_nil others.spelled

theorem WrittenMembers.spelled {members : List (String × Json)} {body : List Char} :
    WrittenMembers members body →
      SpelledMembers (members.map fun member => (some member.1, member.2)) body
  | .last before between value after =>
      .last (.intro before (quoted_writeString _) spaces_nil between value.spelled after)
  | .more before between value others => by
      simpa using SpelledMembers.more
        (.intro before (quoted_writeString _) spaces_nil between value.spelled spaces_nil)
        others.spelled

end

theorem parse?_written
    {value : Json} {text : List Char} (written : Written value text) :
    parse? text = some value := by
  have read := parse?_spelled spaces_nil written.spelled spaces_nil
  rwa [List.nil_append, List.append_nil] at read

end LectureQuiz.Json
