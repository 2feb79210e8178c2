import LectureQuiz.Proofs.Json.RoundTrip

namespace LectureQuiz.Json

/-- A text without control characters. -/
abbrev Printable (text : List Char) : Prop :=
  ∀ character ∈ text, 0x20 ≤ character.toNat

instance (text : List Char) : Decidable (Printable text) :=
  List.decidableBAll _ text

theorem Printable.append
    {first second : List Char} (printable : Printable first)
    (others : Printable second) : Printable (first ++ second) :=
  List.forall_mem_append.2 ⟨printable, others⟩

theorem Printable.cons
    {first : Char} {rest : List Char} (printable : 0x20 ≤ first.toNat)
    (others : Printable rest) : Printable (first :: rest) :=
  List.forall_mem_cons.2 ⟨printable, others⟩

theorem Printable.not_mem
    {text : List Char} (printable : Printable text) {control : Char}
    (small : control.toNat < 0x20) : control ∉ text := by
  intro member
  have := printable control member
  omega

theorem printable_hexDigit :
    ∀ value, value < 16 → 0x20 ≤ (hexDigit value).toNat := by
  decide

theorem printable_escapeChar (character : Char) :
    Printable (escapeChar character) := by
  unfold escapeChar
  iterate 7
    split
    · decide
  split
  · rename_i small
    have high := printable_hexDigit (character.toNat / 16) (by omega)
    have low := printable_hexDigit (character.toNat % 16) (by omega)
    simp [Printable, high, low]
  · rename_i large
    simpa [Printable] using large

theorem printable_writeString (text : String) :
    Printable (writeString text) := by
  refine .cons (by decide) (.append ?_ (by decide))
  intro character member
  obtain ⟨source, _, inside⟩ := List.mem_flatMap.1 member
  exact printable_escapeChar source character inside

theorem printable_toDigits (value : Nat) :
    Printable (Nat.toDigits 10 value) := by
  intro character member
  have digit := isDigit_toDigits value character member
  simp only [Char.isDigit, Bool.and_eq_true, decide_eq_true_eq, UInt32.le_iff_toNat_le] at digit
  exact Nat.le_trans (by decide) digit.1

mutual

theorem printable_compactChars :
    ∀ value : Json, isPlain value = true → Printable (compactChars value)
  | .null, _ => by decide
  | .boolean true, _ => by decide
  | .boolean false, _ => by decide
  | .natural value, _ => printable_toDigits value
  | .numeral _, plain => absurd plain (by simp [isPlain])
  | .string text, _ => printable_writeString text
  | .array elements, plain =>
      .cons (by decide)
        (.append (printable_compactElements elements plain) (by decide))
  | .object members, plain =>
      .cons (by decide)
        (.append (printable_compactMembers members plain) (by decide))
  | .unreadable, plain => absurd plain (by simp [isPlain])

theorem printable_compactElements :
    ∀ elements : List Json,
      plainElements elements = true → Printable (compactElements elements)
  | [], _ => by decide
  | [first], plain => by
      simp only [plainElements, Bool.and_true] at plain
      exact printable_compactChars first plain
  | first :: second :: rest, plain => by
      rw [plainElements, Bool.and_eq_true] at plain
      rw [compactElements]
      · exact .append (printable_compactChars first plain.1)
          (.cons (by decide) (printable_compactElements (second :: rest) plain.2))
      · simp

theorem printable_compactMembers :
    ∀ members : List (String × Json),
      plainMembers members = true → Printable (compactMembers members)
  | [], _ => by decide
  | [(key, value)], plain => by
      simp only [plainMembers, Bool.and_true] at plain
      exact .append (printable_writeString key)
        (.cons (by decide) (printable_compactChars value plain))
  | (key, value) :: second :: rest, plain => by
      rw [plainMembers, Bool.and_eq_true] at plain
      rw [compactMembers]
      · refine .append (printable_writeString key) (.cons (by decide) ?_)
        exact .append (printable_compactChars value plain.1)
          (.cons (by decide) (printable_compactMembers (second :: rest) plain.2))
      · simp

end

end LectureQuiz.Json
