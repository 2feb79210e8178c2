import Mathlib.Data.Option.Basic
import LectureQuiz.Json.Reader

/-!
# Tokens

The ways in which the format lets a string or a number be spelled. The reader takes every
spelling, in front of any text that cannot belong to the token.
-/

namespace LectureQuiz.Json

/-- Characters that may stand between tokens. -/
abbrev Spaces (text : List Char) : Prop :=
  ∀ character ∈ text, isSpace character = true

instance (text : List Char) : Decidable (Spaces text) :=
  List.decidableBAll _ text

/-- The text may stand between quotes, where it gives the pieces. -/
inductive IsLiteral : List Piece → List Char → Prop
  | done : IsLiteral [] []
  | plain {character : Char} {pieces : List Piece} {body : List Char} :
      0x20 ≤ character.toNat → character ≠ '"' → character ≠ '\\' →
      IsLiteral pieces body →
      IsLiteral (.character character :: pieces) (character :: body)
  | short {letter value : Char} {pieces : List Piece} {body : List Char} :
      shortEscape? letter = some value → IsLiteral pieces body →
      IsLiteral (.character value :: pieces) ('\\' :: letter :: body)
  | unit {first second third fourth : Char} {value : Nat} {pieces : List Piece}
      {body : List Char} :
      unitValue? first second third fourth = some value → IsLiteral pieces body →
      IsLiteral (.unit value :: pieces)
        ('\\' :: 'u' :: first :: second :: third :: fourth :: body)

theorem pieces?_shortEscape
    {letter value : Char} (known : shortEscape? letter = some value) (rest : List Char) :
    pieces? ('\\' :: letter :: rest) =
      (pieces? rest).map fun (pieces, after) => (.character value :: pieces, after) := by
  have notUnit : letter ≠ 'u' := by
    rintro rfl
    have unknown : shortEscape? 'u' = none := by decide
    simp [unknown] at known
  rw [pieces?.eq_4 _ _ (by
    intro first second third fourth after isUnit
    exact absurd isUnit notUnit)]
  cases pieces? rest <;> simp [known]

/-- A literal is read up to the quote that closes it. -/
theorem IsLiteral.pieces?_eq
    {pieces : List Piece} {body : List Char} (literal : IsLiteral pieces body)
    (rest : List Char) : pieces? (body ++ '"' :: rest) = some (pieces, rest) := by
  induction literal with
  | done => simp [pieces?]
  | plain printable notQuote notSlash _ inductionHypothesis =>
      simp [pieces?, notSlash, guard, printable, inductionHypothesis]
  | short known _ inductionHypothesis =>
      rw [List.cons_append, List.cons_append, pieces?_shortEscape known, inductionHypothesis]
      rfl
  | unit known _ inductionHypothesis =>
      simp [pieces?, known, inductionHypothesis]

/-- The text is a string with its quotes. It may denote no text. -/
inductive Quoted : Option String → List Char → Prop
  | intro {pieces : List Piece} {body : List Char} (literal : IsLiteral pieces body) :
      Quoted ((assemble? pieces).map String.ofList) ('"' :: (body ++ ['"']))

theorem Quoted.literal?_eq
    {given : Option String} {text : List Char} (quoted : Quoted given text) :
    ∃ opened, text = '"' :: opened ∧
      ∀ rest, literal? (opened ++ rest) = some (given, rest) := by
  obtain ⟨literal⟩ := quoted
  refine ⟨_, rfl, ?_⟩
  intro rest
  rw [List.append_assoc, List.singleton_append, literal?, literal.pieces?_eq]
  rfl

/-- At least one digit, and nothing else. -/
def IsDigits (text : List Char) : Prop :=
  text ≠ [] ∧ ∀ digit ∈ text, digit.isDigit = true

/-- The part of a number in front of a point. -/
inductive IsWhole : List Char → Prop
  | zero : IsWhole ['0']
  | digits {first : Char} {rest : List Char} :
      first ≠ '0' → IsDigits (first :: rest) → IsWhole (first :: rest)

inductive IsFraction : List Char → Prop
  | absent : IsFraction []
  | given {digits : List Char} : IsDigits digits → IsFraction ('.' :: digits)

inductive IsExponent : List Char → Prop
  | absent : IsExponent []
  | given {letter : Char} {sign digits : List Char} :
      letter = 'e' ∨ letter = 'E' → sign = [] ∨ sign = ['+'] ∨ sign = ['-'] →
      IsDigits digits → IsExponent (letter :: (sign ++ digits))

/-- The text spells the number. -/
inductive IsNumber : Json → List Char → Prop
  | natural {whole : List Char} :
      IsWhole whole → IsNumber (.natural (Nat.ofDigitChars 10 whole 0)) whole
  | numeral {sign whole fraction exponent : List Char} :
      sign = [] ∨ sign = ['-'] → IsWhole whole → IsFraction fraction →
      IsExponent exponent → ¬(sign = [] ∧ fraction = [] ∧ exponent = []) →
      IsNumber (.numeral (String.ofList (sign ++ whole ++ fraction ++ exponent)))
        (sign ++ whole ++ fraction ++ exponent)

/-- Whether a text cannot continue a value: it is over, or goes on with a blank
or with a token that ends elements and members. -/
def endsValue : List Char → Bool
  | [] => true
  | first :: _ =>
      isSpace first || first == ',' || first == ']' || first == '\x7d'

/-- The text does not start with a digit. -/
def EndsDigits (text : List Char) : Prop :=
  ∀ first ∈ text.head?, first.isDigit = false

theorem endsValue_cons_facts
    {first : Char} {rest : List Char} (ends : endsValue (first :: rest) = true) :
    first.isDigit = false ∧ first ≠ '.' ∧ first ≠ 'e' ∧ first ≠ 'E' := by
  simp only [endsValue, isSpace, Bool.or_eq_true, beq_iff_eq] at ends
  rcases ends with (((((rfl | rfl) | rfl) | rfl) | rfl) | rfl) | rfl <;> decide

theorem takeWhile_digits_append
    {digits rest : List Char} (allDigits : ∀ digit ∈ digits, digit.isDigit = true)
    (ends : EndsDigits rest) :
    (digits ++ rest).takeWhile Char.isDigit = digits ∧
      (digits ++ rest).dropWhile Char.isDigit = rest := by
  have nothing : rest.takeWhile Char.isDigit = [] ∧ rest.dropWhile Char.isDigit = rest := by
    cases rest with
    | nil => simp
    | cons first others => simp [ends first rfl]
  rw [List.takeWhile_append_of_pos allDigits, List.dropWhile_append_of_pos allDigits,
    nothing.1, nothing.2]
  simp

theorem isDigits_singleton {digit : Char} (isDigit : digit.isDigit = true) :
    IsDigits [digit] :=
  ⟨List.cons_ne_nil _ _, List.forall_mem_singleton.2 isDigit⟩

theorem IsDigits.digits?_append
    {digits rest : List Char} (isDigits : IsDigits digits) (ends : EndsDigits rest) :
    digits? (digits ++ rest) = some (digits, rest) := by
  have cut := takeWhile_digits_append isDigits.2 ends
  simp [digits?, cut, isDigits.1]

theorem IsDigits.head
    {digits : List Char} (isDigits : IsDigits digits) :
    ∃ first rest, digits = first :: rest ∧ first.isDigit = true := by
  obtain ⟨notEmpty, allDigits⟩ := isDigits
  cases digits with
  | nil => exact absurd rfl notEmpty
  | cons first rest => exact ⟨first, rest, rfl, allDigits first List.mem_cons_self⟩

/-- A digit is no other token of the format. -/
theorem ne_of_isDigit
    {digit token : Char} (isDigit : digit.isDigit = true)
    (other : token.isDigit = false) : digit ≠ token := by
  rintro rfl
  exact absurd isDigit (by simp [other])

theorem IsWhole.head
    {whole : List Char} (isWhole : IsWhole whole) :
    ∃ first rest, whole = first :: rest ∧ first.isDigit = true := by
  cases isWhole with
  | zero => exact ⟨_, _, rfl, by decide⟩
  | digits _ isDigits => exact isDigits.head

theorem IsWhole.wholePart?_append
    {whole rest : List Char} (isWhole : IsWhole whole) (ends : EndsDigits rest) :
    wholePart? (whole ++ rest) = some (whole, rest) := by
  cases isWhole with
  | zero => simp [wholePart?]
  | @digits first others notZero isDigits =>
      have firstDigit := isDigits.2 first List.mem_cons_self
      have cut := takeWhile_digits_append
        (fun digit member => isDigits.2 digit (List.mem_cons_of_mem _ member)) ends
      simp [wholePart?, firstDigit, cut]

theorem IsExponent.endsDigits_append
    {exponent rest : List Char} (isExponent : IsExponent exponent)
    (ends : endsValue rest = true) : EndsDigits (exponent ++ rest) := by
  intro first isFirst
  cases isExponent with
  | absent =>
      cases rest with
      | nil => simp at isFirst
      | cons head others =>
          obtain rfl : head = first := by simpa using isFirst
          exact (endsValue_cons_facts ends).1
  | @given letter sign digits isLetter _ _ =>
      obtain rfl : letter = first := by simpa using isFirst
      rcases isLetter with rfl | rfl <;> decide

theorem IsExponent.exponent?_append
    {exponent rest : List Char} (isExponent : IsExponent exponent)
    (ends : endsValue rest = true) :
    exponent? (exponent ++ rest) = some (exponent, rest) := by
  cases isExponent with
  | absent =>
      cases rest with
      | nil => rfl
      | cons first others =>
          obtain ⟨_, _, notSmall, notLarge⟩ := endsValue_cons_facts ends
          simp [exponent?, notSmall, notLarge]
  | @given letter sign digits isLetter isSign isDigits =>
      have read := isDigits.digits?_append (IsExponent.absent.endsDigits_append ends)
      rcases isSign with rfl | rfl | rfl
      · obtain ⟨first, others, rfl, firstDigit⟩ := isDigits.head
        have notPlus : first ≠ '+' := ne_of_isDigit firstDigit (by decide)
        have notMinus : first ≠ '-' := ne_of_isDigit firstDigit (by decide)
        simp only [List.nil_append, List.cons_append] at read ⊢
        simp [exponent?, isLetter, notPlus, notMinus, read]
      · simp only [List.nil_append] at read
        simp [exponent?, isLetter, read]
      · simp only [List.nil_append] at read
        simp [exponent?, isLetter, read]

theorem IsFraction.endsDigits_append
    {fraction exponent rest : List Char} (isFraction : IsFraction fraction)
    (isExponent : IsExponent exponent) (ends : endsValue rest = true) :
    EndsDigits (fraction ++ (exponent ++ rest)) := by
  cases isFraction with
  | absent => exact isExponent.endsDigits_append ends
  | given _ =>
      intro first isFirst
      obtain rfl : '.' = first := by simpa using isFirst
      decide

theorem IsFraction.fraction?_append
    {fraction exponent rest : List Char} (isFraction : IsFraction fraction)
    (isExponent : IsExponent exponent) (ends : endsValue rest = true) :
    fraction? (fraction ++ (exponent ++ rest)) = some (fraction, exponent ++ rest) := by
  cases isFraction with
  | given isDigits =>
      rw [List.cons_append, fraction?,
        isDigits.digits?_append (isExponent.endsDigits_append ends)]
      rfl
  | absent =>
      have noPoint : ∀ after, exponent ++ rest ≠ '.' :: after := by
        intro after equal
        cases isExponent with
        | absent =>
            rw [List.nil_append] at equal
            simp [equal, endsValue, isSpace] at ends
        | given isLetter _ _ =>
            have isPoint := (List.cons.inj equal).1
            rcases isLetter with rfl | rfl <;> exact absurd isPoint (by decide)
      rw [List.nil_append, fraction?.eq_2 _ noPoint]

/-- A sign, if there is one, is told from the digits behind it. -/
theorem number?_signed
    {sign whole fraction exponent rest : List Char} (isSign : sign = [] ∨ sign = ['-'])
    (isWhole : IsWhole whole) (isFraction : IsFraction fraction)
    (isExponent : IsExponent exponent) (ends : endsValue rest = true) :
    number? (sign ++ whole ++ fraction ++ exponent ++ rest) =
      some (if sign = [] ∧ fraction = [] ∧ exponent = [] then
          .natural (Nat.ofDigitChars 10 whole 0)
        else .numeral (String.ofList (sign ++ whole ++ fraction ++ exponent)), rest) := by
  have readWhole := isWhole.wholePart?_append (isFraction.endsDigits_append isExponent ends)
  have readFraction := isFraction.fraction?_append isExponent ends
  have readExponent := isExponent.exponent?_append ends
  rcases isSign with rfl | rfl
  · obtain ⟨first, others, rfl, firstDigit⟩ := isWhole.head
    have notMinus : first ≠ '-' := ne_of_isDigit firstDigit (by decide)
    simp only [List.cons_append] at readWhole
    simp [number?, notMinus, readWhole, readFraction, readExponent]
    split <;> simp [String.append_assoc]
  · simp [number?, readWhole, readFraction, readExponent]

theorem IsNumber.number?_append
    {value : Json} {text : List Char} (isNumber : IsNumber value text)
    {rest : List Char} (ends : endsValue rest = true) :
    number? (text ++ rest) = some (value, rest) := by
  cases isNumber with
  | natural isWhole =>
      simpa using number?_signed (Or.inl rfl) isWhole .absent .absent ends
  | numeral isSign isWhole isFraction isExponent special =>
      rw [number?_signed isSign isWhole isFraction isExponent ends, if_neg special]

/-- A number starts with a digit or a sign. -/
theorem IsNumber.head
    {value : Json} {text : List Char} (isNumber : IsNumber value text) :
    ∃ first rest, text = first :: rest ∧ (first.isDigit = true ∨ first = '-') := by
  cases isNumber with
  | natural isWhole =>
      obtain ⟨first, rest, rfl, firstDigit⟩ := isWhole.head
      exact ⟨first, rest, rfl, Or.inl firstDigit⟩
  | numeral isSign isWhole _ _ _ =>
      obtain ⟨first, rest, rfl, firstDigit⟩ := isWhole.head
      rcases isSign with rfl | rfl
      · exact ⟨first, _, rfl, Or.inl firstDigit⟩
      · exact ⟨'-', _, rfl, Or.inr rfl⟩

end LectureQuiz.Json
