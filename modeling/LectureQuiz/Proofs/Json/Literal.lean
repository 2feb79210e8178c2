import Mathlib.Tactic.IntervalCases
import LectureQuiz.Json.Writer
import LectureQuiz.Proofs.Json.Token

namespace LectureQuiz.Json

/-- The piece that a written character is read as. Control characters without a
short escape are written as code units. -/
def pieceOf (character : Char) : Piece :=
  if character.toNat < 0x20 ∧ character ≠ '\x08' ∧ character ≠ '\t' ∧
      character ≠ '\n' ∧ character ≠ '\x0c' ∧ character ≠ '\r' then
    .unit character.toNat
  else
    .character character

theorem hexValue?_hexDigit :
    ∀ value, value < 16 → Text.hexValue? (hexDigit value) = some value := by
  decide

theorem unitValue?_hexDigits
    {value : Nat} (small : value < 0x20) :
    unitValue? '0' '0' (hexDigit (value / 16)) (hexDigit (value % 16)) =
      some value := by
  have zero : Text.hexValue? '0' = some 0 := by decide
  have high : Text.hexValue? (hexDigit (value / 16)) = some (value / 16) :=
    hexValue?_hexDigit _ (by omega)
  have low : Text.hexValue? (hexDigit (value % 16)) = some (value % 16) :=
    hexValue?_hexDigit _ (by omega)
  simp only [unitValue?, zero, high, low, Option.bind_eq_bind,
    Option.bind_some, pure, Option.some.injEq]
  omega

/-- A written character gives its piece, whatever follows. -/
theorem IsLiteral.escapeChar
    (character : Char) {pieces : List Piece} {body : List Char}
    (literal : IsLiteral pieces body) :
    IsLiteral (pieceOf character :: pieces) (Json.escapeChar character ++ body) := by
  unfold Json.escapeChar
  split
  · subst_vars
    exact .short (by decide) literal
  split
  · subst_vars
    exact .short (by decide) literal
  split
  · subst_vars
    exact .short (by decide) literal
  split
  · subst_vars
    exact .short (by decide) literal
  split
  · subst_vars
    exact .short (by decide) literal
  split
  · subst_vars
    exact .short (by decide) literal
  split
  · subst_vars
    exact .short (by decide) literal
  rename_i notQuote notSlash notBack notTab notFeed notForm notReturn
  split
  · rename_i small
    rw [pieceOf, if_pos ⟨small, notBack, notTab, notFeed, notForm, notReturn⟩]
    exact .unit (unitValue?_hexDigits small) literal
  · rename_i large
    rw [pieceOf, if_neg fun control => large control.1]
    exact .plain (by omega) notQuote notSlash literal

theorem isLiteral_written (characters : List Char) :
    IsLiteral (characters.map pieceOf) (characters.flatMap escapeChar) := by
  induction characters with
  | nil => exact .done
  | cons first others inductionHypothesis =>
      rw [List.map_cons, List.flatMap_cons]
      exact inductionHypothesis.escapeChar first

theorem assemble?_unit_cons
    {value : Nat} (notHigh : isHighSurrogate value = false)
    (notLow : isLowSurrogate value = false) (pieces : List Piece) :
    assemble? (.unit value :: pieces) =
      (assemble? pieces).map (Char.ofNat value :: ·) := by
  cases pieces with
  | nil => simp [assemble?, notHigh, notLow]
  | cons second more =>
      cases second <;> simp [assemble?, notHigh, notLow]

/-- Written code units are no surrogates, so every piece stands for itself. -/
theorem assemble?_pieceOf (characters : List Char) :
    assemble? (characters.map pieceOf) = some characters := by
  induction characters with
  | nil => rfl
  | cons first others inductionHypothesis =>
      rw [List.map_cons]
      by_cases control : first.toNat < 0x20 ∧ first ≠ '\x08' ∧ first ≠ '\t' ∧
          first ≠ '\n' ∧ first ≠ '\x0c' ∧ first ≠ '\r'
      · have small := control.1
        have notHigh : isHighSurrogate first.toNat = false := by
          simp [isHighSurrogate]
          omega
        have notLow : isLowSurrogate first.toNat = false := by
          simp [isLowSurrogate]
          omega
        rw [pieceOf, if_pos control, assemble?_unit_cons notHigh notLow,
          inductionHypothesis]
        simp
      · rw [pieceOf, if_neg control, assemble?, inductionHypothesis]
        rfl

theorem quoted_writeString (text : String) : Quoted (some text) (writeString text) := by
  have quoted := Quoted.intro (isLiteral_written text.toList)
  rw [assemble?_pieceOf, Option.map_some, String.ofList_toList] at quoted
  exact quoted

/-- Only the number zero is written with a zero in front. -/
theorem head_toDigits_ne_zero
    (value : Nat) (positive : 0 < value) :
    ∃ first rest, Nat.toDigits 10 value = first :: rest ∧ first ≠ '0' := by
  induction value using Nat.strongRecOn with
  | ind value inductionHypothesis =>
      by_cases single : value < 10
      · refine ⟨Nat.digitChar value, [], Nat.toDigits_of_lt_base single, ?_⟩
        interval_cases value <;> decide
      · obtain ⟨first, rest, digits, notZero⟩ :=
          inductionHypothesis (value / 10) (by omega) (by omega)
        refine ⟨first, rest ++ [Nat.digitChar (value % 10)], ?_, notZero⟩
        rw [Nat.toDigits_of_base_le (by decide) (by omega), digits,
          List.cons_append]

theorem isDigit_toDigits
    (value : Nat) : ∀ digit ∈ Nat.toDigits 10 value, digit.isDigit = true :=
  fun _ member => Nat.isDigit_of_mem_toDigits (by decide) (by decide) member

theorem isWhole_toDigits (value : Nat) : IsWhole (Nat.toDigits 10 value) := by
  rcases Nat.eq_zero_or_pos value with rfl | positive
  · exact .zero
  · obtain ⟨first, others, digits, notZero⟩ := head_toDigits_ne_zero value positive
    have allDigits := isDigit_toDigits value
    rw [digits] at allDigits ⊢
    exact .digits notZero ⟨List.cons_ne_nil _ _, allDigits⟩

theorem isNumber_toDigits (value : Nat) :
    IsNumber (.natural value) (Nat.toDigits 10 value) := by
  have isNumber := IsNumber.natural (isWhole_toDigits value)
  rw [Nat.ofDigitChars_ten_toDigits] at isNumber
  exact isNumber

end LectureQuiz.Json
