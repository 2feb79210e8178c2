import Mathlib.Algebra.Group.Nat.Defs
import Mathlib.Data.List.Induction
import LectureQuiz.Text.Digit

namespace LectureQuiz.Text

/-- The value of a decimal digit: its place in its row of ten. -/
def digitValue (digit : Char) : Nat :=
  match digitRanges.find? fun range =>
      range.1 ≤ digit.toNat && digit.toNat ≤ range.2 with
  | some range => (digit.toNat - range.1) % 10
  | none => 0

/-- The number that decimal digits write. -/
def digitsValue (digits : List Char) : Nat :=
  digits.foldl (fun value digit => 10 * value + digitValue digit) 0

/-- All digits are ASCII digits. -/
def IsAsciiDigits (digits : List Char) : Prop :=
  ∀ digit ∈ digits, digit.isDigit = true

instance (digits : List Char) : Decidable (IsAsciiDigits digits) :=
  List.decidableBAll _ digits

variable {digits : List Char} {digit : Char}

theorem digitValue_lt (digit : Char) : digitValue digit < 10 := by
  rw [digitValue]
  split
  · exact Nat.mod_lt _ (by decide)
  · decide

theorem toNat_of_isDigit (isDigit : digit.isDigit = true) :
    0x30 ≤ digit.toNat ∧ digit.toNat ≤ 0x39 := by
  rw [Char.isDigit, Bool.and_eq_true, decide_eq_true_eq, decide_eq_true_eq] at isDigit
  exact ⟨UInt32.le_iff_toNat_le.1 isDigit.1, UInt32.le_iff_toNat_le.1 isDigit.2⟩

theorem isDecimalDigit_of_isDigit (isDigit : digit.isDigit = true) :
    isDecimalDigit digit = true := by
  rw [isDecimalDigit, CodeRanges.covers_iff]
  exact ⟨(0x30, 0x39), List.mem_cons_self, toNat_of_isDigit isDigit⟩

theorem digitValue_of_isDigit (isDigit : digit.isDigit = true) :
    digitValue digit = digit.toNat - '0'.toNat := by
  have bounds := toNat_of_isDigit isDigit
  rw [digitValue, digitRanges, List.find?_cons_of_pos]
  · have zero : '0'.toNat = 0x30 := rfl
    dsimp only
    omega
  · simpa using bounds

theorem digitsValue_concat (digits : List Char) (last : Char) :
    digitsValue (digits ++ [last]) = 10 * digitsValue digits + digitValue last := by
  rw [digitsValue, List.foldl_append]
  rfl

theorem digitsValue_lt (digits : List Char) :
    digitsValue digits < 10 ^ digits.length := by
  induction digits using List.reverseRecOn with
  | nil => decide
  | append_singleton digits last inductionHypothesis =>
      have lastBound := digitValue_lt last
      rw [digitsValue_concat, List.length_append, List.length_singleton, pow_succ]
      omega

theorem digitsValue_of_isAsciiDigits (ascii : IsAsciiDigits digits) :
    digitsValue digits = Nat.ofDigitChars 10 digits 0 := by
  induction digits using List.reverseRecOn with
  | nil => rfl
  | append_singleton digits last inductionHypothesis =>
      rw [IsAsciiDigits, List.forall_mem_append, List.forall_mem_singleton] at ascii
      rw [digitsValue_concat, inductionHypothesis ascii.1, digitValue_of_isDigit ascii.2,
        Nat.ofDigitChars_append]
      rfl

theorem decimal?_eq_some_iff {value : Nat} :
    decimal? digits = some value ↔
      digits ≠ [] ∧ IsAsciiDigits digits ∧ digitsValue digits = value := by
  by_cases isEmpty : digits = []
  · rw [decimal?, if_pos isEmpty]
    exact iff_of_false (Option.some_ne_none value).symm fun isNumber => isNumber.1 isEmpty
  · rw [decimal?, if_neg isEmpty]
    by_cases ascii : IsAsciiDigits digits
    · rw [if_pos (List.all_eq_true.2 ascii), Option.some.injEq,
        ← digitsValue_of_isAsciiDigits ascii]
      exact ⟨fun value => ⟨isEmpty, ascii, value⟩, fun isNumber => isNumber.2.2⟩
    · rw [if_neg fun allDigits => ascii (List.all_eq_true.1 allDigits)]
      exact iff_of_false (Option.some_ne_none value).symm fun isNumber => ascii isNumber.2.1

/-- The text writes the number in ASCII digits, maybe with a plus sign in front. -/
def WritesNumber (text : List Char) (value : Nat) : Prop :=
  ∃ digits, (text = digits ∨ text = '+' :: digits) ∧
    digits ≠ [] ∧ IsAsciiDigits digits ∧ digitsValue digits = value

theorem boundedDecimal?_eq_some_iff {bound value : Nat} {text : List Char} :
    boundedDecimal? bound text = some value ↔ WritesNumber text value ∧ value < bound := by
  unfold boundedDecimal?
  rw [Option.filter_eq_some_iff, decide_eq_true_eq, decimal?_eq_some_iff, WritesNumber]
  refine and_congr_left fun _ => ?_
  split
  · rename_i rest
    constructor
    · exact fun isNumber => ⟨rest, Or.inr rfl, isNumber⟩
    · rintro ⟨digits, same | signed, isNumber⟩
      · have isDigit := isNumber.2.1 '+' (same ▸ List.mem_cons_self)
        exact absurd isDigit (by decide)
      · rw [List.cons.injEq] at signed
        exact signed.2 ▸ isNumber
  · rename_i unsigned
    constructor
    · exact fun isNumber => ⟨text, Or.inl rfl, isNumber⟩
    · rintro ⟨digits, same | signed, isNumber⟩
      · exact same ▸ isNumber
      · exact absurd signed (unsigned digits)

/-- The value that reading digits gives: only ASCII digits count. -/
def countedValue (digits : List Char) : Nat :=
  if IsAsciiDigits digits then digitsValue digits else 0

theorem countedValue_le (digits : List Char) : countedValue digits ≤ digitsValue digits := by
  rw [countedValue]
  split
  · exact Nat.le_refl _
  · exact Nat.zero_le _

theorem countedValue_eq_iff :
    countedValue digits = digitsValue digits ↔
      IsAsciiDigits digits ∨ digitsValue digits = 0 := by
  rw [countedValue]
  split
  · rename_i ascii
    exact ⟨fun _ => Or.inl ascii, fun _ => rfl⟩
  · rename_i foreign
    exact ⟨fun isZero => Or.inr isZero.symm,
      fun either => (either.resolve_left foreign).symm⟩

theorem getD_decimal? (digits : List Char) :
    (decimal? digits).getD 0 = countedValue digits := by
  rw [countedValue]
  split
  · rename_i ascii
    by_cases isEmpty : digits = []
    · subst isEmpty
      rfl
    · rw [decimal?_eq_some_iff.2 ⟨isEmpty, ascii, rfl⟩, Option.getD_some]
  · rename_i foreign
    have noNumber : decimal? digits = none := Option.eq_none_iff_forall_ne_some.2
      fun _ isNumber => foreign (decimal?_eq_some_iff.1 isNumber).2.1
    rw [noNumber, Option.getD_none]

end LectureQuiz.Text
