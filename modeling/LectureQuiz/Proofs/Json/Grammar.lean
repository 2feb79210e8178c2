import Mathlib.Data.List.DropRight
import LectureQuiz.Proofs.Json.Token

/-!
# The texts of values

`Spelled` is the grammar of the format: which texts spell a value, with blanks between any
two tokens, every spelling of strings and numbers, and arrays and objects nested to any
depth. The reader gives the value of every such text.
-/

namespace LectureQuiz.Json

mutual

/-- The text spells the value, with no blanks around it. -/
inductive Spelled : Json → List Char → Prop
  | null : Spelled .null "null".toList
  | yes : Spelled (.boolean true) "true".toList
  | no : Spelled (.boolean false) "false".toList
  | number {value : Json} {text : List Char} : IsNumber value text → Spelled value text
  | string {given : String} {text : List Char} :
      Quoted (some given) text → Spelled (.string given) text
  | unreadable {text : List Char} : Quoted none text → Spelled .unreadable text
  | noElements {between : List Char} :
      Spaces between → Spelled (.array []) ('[' :: (between ++ [']']))
  | array {elements : List Json} {body : List Char} :
      SpelledElements elements body → Spelled (.array elements) ('[' :: (body ++ [']']))
  | noMembers {between : List Char} :
      Spaces between → Spelled (.object []) ('\x7b' :: (between ++ ['\x7d']))
  | object {members : List (Option String × Json)} {body : List Char} :
      SpelledMembers members body →
      Spelled (objectOf members) ('\x7b' :: (body ++ ['\x7d']))

/-- The text spells the elements between the brackets of an array. -/
inductive SpelledElements : List Json → List Char → Prop
  | last {element : Json} {before text after : List Char} :
      Spaces before → Spelled element text → Spaces after →
      SpelledElements [element] (before ++ (text ++ after))
  | more {element : Json} {rest : List Json} {before text after body : List Char} :
      Spaces before → Spelled element text → Spaces after → SpelledElements rest body →
      SpelledElements (element :: rest) (before ++ (text ++ (after ++ ',' :: body)))

/-- The text spells a key and its value. -/
inductive SpelledMember : Option String × Json → List Char → Prop
  | intro {key : Option String} {value : Json}
      {before quoted behind between text after : List Char} :
      Spaces before → Quoted key quoted → Spaces behind → Spaces between →
      Spelled value text → Spaces after →
      SpelledMember (key, value)
        (before ++ (quoted ++ (behind ++ ':' :: (between ++ (text ++ after)))))

/-- The text spells the members between the braces of an object. -/
inductive SpelledMembers : List (Option String × Json) → List Char → Prop
  | last {member : Option String × Json} {text : List Char} :
      SpelledMember member text → SpelledMembers [member] text
  | more {member : Option String × Json} {rest : List (Option String × Json)}
      {text body : List Char} :
      SpelledMember member text → SpelledMembers rest body →
      SpelledMembers (member :: rest) (text ++ ',' :: body)

end

theorem spaces_nil : Spaces [] :=
  List.forall_mem_nil _

theorem skipSpace_append
    {before : List Char} (spaces : Spaces before) (text : List Char) :
    skipSpace (before ++ text) = skipSpace text :=
  List.dropWhile_append_of_pos spaces

theorem skipSpace_cons
    {first : Char} (visible : isSpace first = false) (rest : List Char) :
    skipSpace (first :: rest) = first :: rest := by
  simp [skipSpace, visible]

theorem skipSpace_skipSpace (text : List Char) :
    skipSpace (skipSpace text) = skipSpace text :=
  List.dropWhile_idempotent _ _

/-- The token that follows the blanks is met first. -/
theorem skipSpace_spaces_cons
    {before : List Char} (spaces : Spaces before) {token : Char}
    (visible : isSpace token = false) (rest : List Char) :
    skipSpace (before ++ token :: rest) = token :: rest := by
  rw [skipSpace_append spaces, skipSpace_cons visible]

@[simp] theorem value?_skipSpace (fuel : Nat) (text : List Char) :
    value? fuel (skipSpace text) = value? fuel text := by
  cases fuel with
  | zero => simp [value?]
  | succ fuel => rw [value?, value?, skipSpace_skipSpace]

@[simp] theorem elements?_skipSpace (fuel : Nat) (text : List Char) :
    elements? fuel (skipSpace text) = elements? fuel text := by
  cases fuel with
  | zero => simp [elements?]
  | succ fuel => rw [elements?, elements?, value?_skipSpace]

@[simp] theorem members?_skipSpace (fuel : Nat) (text : List Char) :
    members? fuel (skipSpace text) = members? fuel text := by
  cases fuel with
  | zero => simp [members?]
  | succ fuel => rw [members?, members?, skipSpace_skipSpace]

/-- What a value can start with is no blank and closes no array or object. -/
theorem Spelled.head
    {value : Json} {text : List Char} (spelled : Spelled value text) :
    ∃ first rest, text = first :: rest ∧ isSpace first = false ∧
      first ≠ ']' ∧ first ≠ '\x7d' := by
  cases spelled with
  | number isNumber =>
      obtain ⟨first, rest, rfl, firstDigit | rfl⟩ := isNumber.head
      · have notToken : ∀ token : Char, token.isDigit = false → first ≠ token :=
          fun _ other => ne_of_isDigit firstDigit other
        exact ⟨first, rest, rfl, by simp [isSpace, notToken], notToken _ (by decide),
          notToken _ (by decide)⟩
      · exact ⟨_, _, rfl, by decide, by decide, by decide⟩
  | string quoted =>
      obtain ⟨opened, rfl, _⟩ := quoted.literal?_eq
      exact ⟨_, _, rfl, by decide, by decide, by decide⟩
  | unreadable quoted =>
      obtain ⟨opened, rfl, _⟩ := quoted.literal?_eq
      exact ⟨_, _, rfl, by decide, by decide, by decide⟩
  | null => exact ⟨_, _, rfl, by decide, by decide, by decide⟩
  | yes => exact ⟨_, _, rfl, by decide, by decide, by decide⟩
  | no => exact ⟨_, _, rfl, by decide, by decide, by decide⟩
  | noElements _ => exact ⟨_, _, rfl, by decide, by decide, by decide⟩
  | array _ => exact ⟨_, _, rfl, by decide, by decide, by decide⟩
  | noMembers _ => exact ⟨_, _, rfl, by decide, by decide, by decide⟩
  | object _ => exact ⟨_, _, rfl, by decide, by decide, by decide⟩

theorem Spelled.skipSpace_eq
    {value : Json} {text before : List Char} (spelled : Spelled value text)
    (spaces : Spaces before) (rest : List Char) :
    skipSpace (before ++ (text ++ rest)) = text ++ rest := by
  obtain ⟨first, others, rfl, visible, _⟩ := spelled.head
  rw [List.cons_append, skipSpace_spaces_cons spaces visible]

theorem SpelledElements.head
    {elements : List Json} {body : List Char} (spelled : SpelledElements elements body)
    (rest : List Char) : (skipSpace (body ++ rest)).head? ≠ some ']' := by
  cases spelled with
  | last before element _ =>
      rw [List.append_assoc, List.append_assoc, element.skipSpace_eq before]
      obtain ⟨first, others, rfl, _, notBracket, _⟩ := element.head
      simpa using notBracket
  | more before element _ _ =>
      rw [List.append_assoc, List.append_assoc, element.skipSpace_eq before]
      obtain ⟨first, others, rfl, _, notBracket, _⟩ := element.head
      simpa using notBracket

theorem SpelledMember.head
    {member : Option String × Json} {text : List Char} (spelled : SpelledMember member text)
    (rest : List Char) : (skipSpace (text ++ rest)).head? = some '"' := by
  obtain ⟨before, quoted, _, _, _, _⟩ := spelled
  obtain ⟨opened, rfl, _⟩ := quoted.literal?_eq
  rw [List.append_assoc, List.append_assoc, List.cons_append,
    skipSpace_spaces_cons before (by decide)]
  rfl

theorem SpelledMembers.head
    {members : List (Option String × Json)} {body : List Char}
    (spelled : SpelledMembers members body) (rest : List Char) :
    (skipSpace (body ++ rest)).head? ≠ some '\x7d' := by
  cases spelled with
  | last member => simp [member.head]
  | more member _ =>
      rw [List.append_assoc]
      simp [member.head]

/-! ## Reading values -/

/-- An array that does not end at once holds the elements behind its bracket. -/
theorem value?_bracket
    (fuel : Nat) {inner : List Char} (goesOn : (skipSpace inner).head? ≠ some ']') :
    value? (fuel + 1) ('[' :: inner) =
      (elements? fuel inner).map fun (elements, after) => (.array elements, after) := by
  rw [value?, skipSpace_cons (by decide)]
  simp only
  split
  · rename_i after equal
    simp [equal] at goesOn
  · rw [elements?_skipSpace]

/-- An object that does not end at once holds the members behind its brace. -/
theorem value?_brace
    (fuel : Nat) {inner : List Char} (goesOn : (skipSpace inner).head? ≠ some '\x7d') :
    value? (fuel + 1) ('\x7b' :: inner) =
      (members? fuel inner).map fun (members, after) => (objectOf members, after) := by
  rw [value?, skipSpace_cons (by decide)]
  simp only
  split
  · rename_i after equal
    simp [equal] at goesOn
  · rw [members?_skipSpace]

theorem value?_number
    (fuel : Nat) {value : Json} {text rest : List Char} (isNumber : IsNumber value text)
    (ends : endsValue rest = true) :
    value? (fuel + 1) (text ++ rest) = some (value, rest) := by
  have read := isNumber.number?_append ends
  obtain ⟨first, others, rfl, isFirst⟩ := isNumber.head
  have notToken : ∀ token : Char, token.isDigit = false → token ≠ '-' → first ≠ token := by
    intro token noDigit noSign
    rcases isFirst with firstDigit | rfl
    · exact ne_of_isDigit firstDigit noDigit
    · exact noSign.symm
  have visible : isSpace first = false := by
    simp [isSpace, notToken]
  rw [List.cons_append] at read ⊢
  rw [value?, skipSpace_cons visible]
  simp [notToken, ← read]

theorem endsValue_append
    {after : List Char} (spaces : Spaces after) {closing : Char}
    (closes : endsValue [closing] = true) (rest : List Char) :
    endsValue (after ++ closing :: rest) = true := by
  cases after with
  | nil => exact closes
  | cons first others => simp [endsValue, spaces first List.mem_cons_self]

/-- With this fuel the reader gives every value that is short enough and stops right behind
it. Every character pays for two steps of the reader. -/
def ReadsValues (fuel : Nat) : Prop :=
  ∀ {value : Json} {text before : List Char} (rest : List Char),
    Spelled value text → Spaces before → endsValue rest = true → 2 * text.length ≤ fuel →
    value? fuel (before ++ (text ++ rest)) = some (value, rest)

def ReadsElements (fuel : Nat) : Prop :=
  ∀ {elements : List Json} {body : List Char} (rest : List Char),
    SpelledElements elements body → 2 * body.length + 1 ≤ fuel →
    elements? fuel (body ++ ']' :: rest) = some (elements, rest)

def ReadsMembers (fuel : Nat) : Prop :=
  ∀ {members : List (Option String × Json)} {body : List Char} (rest : List Char),
    SpelledMembers members body → 2 * body.length + 1 ≤ fuel →
    members? fuel (body ++ '\x7d' :: rest) = some (members, rest)

theorem readsValues_succ
    {fuel : Nat} (readsElements : ReadsElements fuel) (readsMembers : ReadsMembers fuel) :
    ReadsValues (fuel + 1) := by
  intro value text before rest spelled spaces ends enough
  rw [← value?_skipSpace, spelled.skipSpace_eq spaces]
  cases spelled with
  | null => simp [value?, skipSpace_cons, isSpace]
  | yes => simp [value?, skipSpace_cons, isSpace]
  | no => simp [value?, skipSpace_cons, isSpace]
  | number isNumber => exact value?_number fuel isNumber ends
  | string quoted =>
      obtain ⟨opened, rfl, read⟩ := quoted.literal?_eq
      simp [value?, skipSpace_cons, isSpace, read]
  | unreadable quoted =>
      obtain ⟨opened, rfl, read⟩ := quoted.literal?_eq
      simp [value?, skipSpace_cons, isSpace, read]
  | noElements between =>
      simp [value?, skipSpace_cons, isSpace, skipSpace_append between]
  | noMembers between =>
      simp [value?, skipSpace_cons, isSpace, skipSpace_append between]
  | array elements =>
      simp only [List.length_cons, List.length_append] at enough
      rw [List.cons_append, List.append_assoc, List.singleton_append,
        value?_bracket _ (elements.head _), readsElements rest elements (by omega)]
      rfl
  | object members =>
      simp only [List.length_cons, List.length_append] at enough
      rw [List.cons_append, List.append_assoc, List.singleton_append,
        value?_brace _ (members.head _), readsMembers rest members (by omega)]
      rfl

theorem readsElements_succ
    {fuel : Nat} (readsValues : ReadsValues fuel) (readsElements : ReadsElements fuel) :
    ReadsElements (fuel + 1) := by
  intro elements body rest spelled enough
  cases spelled with
  | last before element after =>
      simp only [List.length_append] at enough
      rw [elements?, List.append_assoc, List.append_assoc,
        readsValues _ element before (endsValue_append after rfl rest) (by omega)]
      simp [skipSpace_append after, skipSpace_cons, isSpace]
  | more before element after others =>
      simp only [List.length_append, List.length_cons] at enough
      rw [elements?, List.append_assoc, List.append_assoc, List.append_assoc,
        List.cons_append,
        readsValues _ element before (endsValue_append after rfl _) (by omega)]
      simp [skipSpace_append after, skipSpace_cons, isSpace,
        readsElements rest others (by omega)]

/-- A member is read up to the token behind it, which ends the object or stands in front of
the next member. -/
theorem members?_member
    {fuel : Nat} (readsValues : ReadsValues fuel) {member : Option String × Json}
    {text : List Char} (spelled : SpelledMember member text)
    (enough : 2 * text.length ≤ fuel) {closing : Char}
    (closes : closing = '\x7d' ∨ closing = ',') (rest : List Char) :
    members? (fuel + 1) (text ++ closing :: rest) =
      if closing = '\x7d' then some ([member], rest)
      else (members? fuel rest).map fun read => (member :: read.1, read.2) := by
  obtain ⟨before, quoted, behind, between, value, after⟩ := spelled
  obtain ⟨opened, rfl, read⟩ := quoted.literal?_eq
  simp only [List.length_append, List.length_cons] at enough
  have ends : endsValue [closing] = true ∧ isSpace closing = false := by
    rcases closes with rfl | rfl <;> decide
  have readValue := readsValues _ value between (endsValue_append after ends.1 rest) (by omega)
  have readKey := @skipSpace_spaces_cons _ before '"' (by decide)
  have readColon := @skipSpace_spaces_cons _ behind ':' (by decide)
  have readClosing := skipSpace_spaces_cons after ends.2 rest
  simp only [List.append_assoc, List.cons_append] at read readValue readColon ⊢
  rw [members?, readKey]
  rcases closes with rfl | rfl
  · simp [read, readColon, readValue, readClosing]
  · simp [read, readColon, readValue, readClosing]

theorem readsMembers_succ
    {fuel : Nat} (readsValues : ReadsValues fuel) (readsMembers : ReadsMembers fuel) :
    ReadsMembers (fuel + 1) := by
  intro members body rest spelled enough
  cases spelled with
  | last member =>
      rw [members?_member readsValues member (by omega) (Or.inl rfl), if_pos rfl]
  | more member others =>
      simp only [List.length_append, List.length_cons] at enough
      rw [List.append_assoc, List.cons_append,
        members?_member readsValues member (by omega) (Or.inr rfl), if_neg (by decide),
        readsMembers rest others (by omega)]
      rfl

theorem reads (fuel : Nat) :
    ReadsValues fuel ∧ ReadsElements fuel ∧ ReadsMembers fuel := by
  induction fuel with
  | zero =>
      refine ⟨?_, ?_, ?_⟩
      · intro value text before rest spelled _ _ enough
        obtain ⟨first, others, rfl, _⟩ := spelled.head
        simp at enough
      · intro elements body rest _ enough
        omega
      · intro members body rest _ enough
        omega
  | succ fuel inductionHypothesis =>
      obtain ⟨values, elements, members⟩ := inductionHypothesis
      exact ⟨readsValues_succ elements members, readsElements_succ values elements,
        readsMembers_succ values members⟩

/-- The reader accepts every text of the grammar, with blanks at its ends. -/
theorem parse?_spelled
    {value : Json} {before text after : List Char} (spacesBefore : Spaces before)
    (spelled : Spelled value text) (spacesAfter : Spaces after) :
    parse? (before ++ (text ++ after)) = some value := by
  have ends : endsValue after = true := by
    cases after with
    | nil => rfl
    | cons first others => simp [endsValue, spacesAfter first List.mem_cons_self]
  have nothing : skipSpace after = [] := by
    have all := skipSpace_append spacesAfter []
    rwa [List.append_nil] at all
  have read := (reads (2 * (before ++ (text ++ after)).length + 2)).1 after spelled
    spacesBefore ends (by simp only [List.length_append]; omega)
  rw [parse?, read]
  simp only [Option.bind_eq_bind, Option.bind_some, nothing]
  rfl

end LectureQuiz.Json
