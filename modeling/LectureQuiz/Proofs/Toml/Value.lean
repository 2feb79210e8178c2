import LectureQuiz.Proofs.Json.Literal
import LectureQuiz.Proofs.Toml.Quoted
import LectureQuiz.Toml.Reader

/-!
# Written values are read back

A configuration is written with numbers, truth values, texts and lists of texts, each
behind its key and up to the end of the line. `IsWritten` says that a text is read as a
value there. A number may not exceed the greatest integer of 64 bits.
-/

namespace LectureQuiz.Toml

open LectureQuiz.Text

/-- The text is read as the value when a line ends behind it. -/
structure IsWritten (value : Toml) (written : List Char) : Prop where
  solid : ∃ first others, written = first :: others ∧ isSpace first = false
  reads {fuel depth : Nat} (rest : List Char) :
    written.length < fuel → 0 < depth →
      value? fuel depth (written ++ '\n' :: rest) = some (value, '\n' :: rest)

/-- The text starts with digits, and a line ends behind them. -/
def IsDigitLine (text : List Char) : Prop :=
  ∃ digits rest, text = digits ++ '\n' :: rest ∧ ∀ digit ∈ digits, digit.isDigit = true

variable {text after : List Char}

theorem IsDigitLine.twoDigits
    (isLine : IsDigitLine text) {least most value : Nat}
    (read : twoDigits? least most text = some (value, after)) : IsDigitLine after := by
  obtain ⟨digits, rest, rfl, areDigits⟩ := isLine
  cases digits with
  | nil =>
      cases rest with
      | nil => exact absurd read (by simp [twoDigits?])
      | cons first rest =>
          have notDigit : Char.isDigit '\n' = false := rfl
          exact absurd read (by simp [twoDigits?, notDigit])
  | cons tens digits =>
      cases digits with
      | nil =>
          have notDigit : Char.isDigit '\n' = false := rfl
          exact absurd read (by simp [twoDigits?, notDigit])
      | cons ones digits =>
          simp only [twoDigits?, List.cons_append, Option.ite_none_right_eq_some,
            Option.some.injEq, Prod.mk.injEq] at read
          obtain ⟨_, _, rfl⟩ := read
          exact ⟨digits, rest, rfl, fun digit member =>
            areDigits digit (List.mem_cons_of_mem _ (List.mem_cons_of_mem _ member))⟩

theorem IsDigitLine.after?_eq_none
    (isLine : IsDigitLine text) {mark : Char} (notDigit : mark.isDigit = false)
    (notFeed : mark ≠ '\n') : after? mark text = none := by
  obtain ⟨digits, rest, rfl, areDigits⟩ := isLine
  cases digits with
  | nil => rw [List.nil_append, after?, if_neg notFeed.symm]
  | cons digit digits =>
      have different : digit ≠ mark := by
        rintro rfl
        exact absurd (areDigits _ List.mem_cons_self) (by simp [notDigit])
      rw [List.cons_append, after?, if_neg different]

/-- Digits alone are no date, because a date has a mark behind its first digits. -/
theorem IsDigitLine.afterDay?_eq_none (isLine : IsDigitLine text) : afterDay? text = none := by
  rw [afterDay?]
  cases first : twoDigits? 0 99 text with
  | none => rfl
  | some century =>
      cases second : twoDigits? 0 99 century.2 with
      | none => simp [second]
      | some year =>
          have noDash : after? '-' year.2 = none :=
            ((isLine.twoDigits first).twoDigits second).after?_eq_none rfl (by decide)
          simp [second, noDash]

theorem IsDigitLine.afterTime?_eq_none (isLine : IsDigitLine text) :
    afterTime? text = none := by
  rw [afterTime?]
  cases first : twoDigits? 0 23 text with
  | none => rfl
  | some hour =>
      have noColon : after? ':' hour.2 = none :=
        (isLine.twoDigits first).after?_eq_none rfl (by decide)
      simp [noColon]

theorem IsDigitLine.date?_eq_none (isLine : IsDigitLine text) : date? text = none := by
  rw [date?, afterDate?, isLine.afterDay?_eq_none]
  simp only [isLine.afterTime?_eq_none, Option.map_none]

theorem moreDigits?_append
    {digits : List Char} (areDigits : ∀ digit ∈ digits, digit.isDigit = true)
    (rest : List Char) :
    moreDigits? Char.isDigit (digits ++ '\n' :: rest) = some (digits, '\n' :: rest) := by
  induction digits with
  | nil =>
      have notDigit : Char.isDigit '\n' = false := rfl
      simp [moreDigits?, notDigit]
  | cons digit digits inductionHypothesis =>
      rw [List.forall_mem_cons] at areDigits
      have read := inductionHypothesis areDigits.2
      have notUnderscore : digit ≠ '_' := by
        rintro rfl
        exact absurd areDigits.1 (by decide)
      rw [List.cons_append, moreDigits?, if_pos areDigits.1, read]
      · rfl
      · exact fun underscore _ => notUnderscore underscore
      · exact fun _ _ underscore _ => notUnderscore underscore

theorem wholeDigits?_toDigits (value : Nat) (rest : List Char) :
    wholeDigits? (Nat.toDigits 10 value ++ '\n' :: rest) =
      some (Nat.toDigits 10 value, '\n' :: rest) := by
  rcases Nat.eq_zero_or_pos value with rfl | positive
  · rfl
  · obtain ⟨first, others, digits, notZero⟩ := Json.head_toDigits_ne_zero value positive
    have areDigits := Json.isDigit_toDigits value
    rw [digits, List.forall_mem_cons] at areDigits
    rw [digits, List.cons_append, wholeDigits?]
    · rw [someDigits?, if_pos areDigits.1, moreDigits?_append areDigits.2]
      rfl
    · exact fun _ same => notZero (List.cons.inj same).1

theorem valueOf_toDigits (value : Nat) : valueOf 10 (Nat.toDigits 10 value) = value := by
  have sameFold : ∀ (digits : List Char) (start : Nat),
      (∀ digit ∈ digits, digit.isDigit = true) →
      digits.foldl (fun value digit => 10 * value + (hexValue? digit).getD 0) start =
        Nat.ofDigitChars 10 digits start := by
    intro digits
    induction digits with
    | nil => exact fun _ _ => rfl
    | cons digit digits inductionHypothesis =>
        intro start areDigits
        rw [List.forall_mem_cons] at areDigits
        rw [List.foldl_cons, inductionHypothesis _ areDigits.2, hexValue?, if_pos areDigits.1]
        rfl
  rw [valueOf, sameFold _ _ (Json.isDigit_toDigits value), Nat.ofDigitChars_ten_toDigits]

theorem toDigits_cons (value : Nat) :
    ∃ first others, Nat.toDigits 10 value = first :: others ∧ first.isDigit = true := by
  have areDigits := Json.isDigit_toDigits value
  cases digits : Nat.toDigits 10 value with
  | nil => exact absurd digits Nat.toDigits_ne_nil
  | cons first others =>
      rw [digits] at areDigits
      exact ⟨first, others, rfl, areDigits first List.mem_cons_self⟩

theorem sign_of_isDigit
    {first : Char} {others : List Char} (isDigit : first.isDigit = true) :
    sign (first :: others) = (none, first :: others) := by
  rw [sign]
  · rintro _ ⟨rfl⟩
    exact absurd isDigit (by decide)
  · rintro _ ⟨rfl⟩
    exact absurd isDigit (by decide)

theorem decimalNumber?_toDigits
    {value : Nat} (small : value < 2 ^ 63) (rest : List Char) :
    decimalNumber? (Nat.toDigits 10 value ++ '\n' :: rest) =
      some (.integer value, '\n' :: rest) := by
  obtain ⟨first, others, digits, isDigit⟩ := toDigits_cons value
  have signless : sign (Nat.toDigits 10 value ++ '\n' :: rest) =
      (none, Nat.toDigits 10 value ++ '\n' :: rest) := by
    rw [digits, List.cons_append]
    exact sign_of_isDigit isDigit
  have fits : integer? value = some (.integer value) := by
    rw [integer?, if_pos]
    have least : Int64.minValue.toInt = -2 ^ 63 := rfl
    have greatest : Int64.maxValue.toInt = 2 ^ 63 - 1 := rfl
    omega
  have noFraction : fraction? ('\n' :: rest) = some ([], '\n' :: rest) := rfl
  have noExponent : exponent? ('\n' :: rest) = some (none, '\n' :: rest) := rfl
  simp [decimalNumber?, signless, wholeDigits?_toDigits, noFraction, noExponent,
    valueOf_toDigits, fits]

theorem number?_toDigits
    {value : Nat} (small : value < 2 ^ 63) (rest : List Char) :
    number? (Nat.toDigits 10 value ++ '\n' :: rest) = some (.integer value, '\n' :: rest) := by
  rw [← decimalNumber?_toDigits small rest]
  rcases Nat.eq_zero_or_pos value with rfl | positive
  · rfl
  · obtain ⟨first, others, digits, notZero⟩ := Json.head_toDigits_ne_zero value positive
    have areDigits := Json.isDigit_toDigits value
    rw [digits, List.forall_mem_cons] at areDigits
    rw [digits, List.cons_append, number?]
    · rw [sign_of_isDigit areDigits.1]
      split
      · rename_i same
        rw [List.cons.injEq] at same
        rw [same.1] at areDigits
        exact absurd areDigits.1 (by decide)
      · rename_i same
        rw [List.cons.injEq] at same
        rw [same.1] at areDigits
        exact absurd areDigits.1 (by decide)
      · rfl
    · exact fun _ same => notZero (List.cons.inj same).1
    · exact fun _ same => notZero (List.cons.inj same).1
    · exact fun _ same => notZero (List.cons.inj same).1

theorem isWritten_number {value : Nat} (small : value < 2 ^ 63) :
    IsWritten (.integer value) (Nat.toDigits 10 value) := by
  obtain ⟨first, others, digits, isDigit⟩ := toDigits_cons value
  have different : ∀ {other : Char}, other.isDigit = false → first ≠ other := by
    rintro other notDigit rfl
    exact absurd isDigit (by simp [notDigit])
  refine ⟨⟨first, others, digits, ?_⟩, fun rest enough _ => ?_⟩
  · have notSpace : first ≠ ' ' := different rfl
    have notTab : first ≠ '\t' := different rfl
    simp [isSpace, notSpace, notTab]
  · obtain ⟨fuel, rfl⟩ := Nat.exists_eq_add_one_of_ne_zero (Nat.ne_zero_of_lt enough)
    have isLine : IsDigitLine (Nat.toDigits 10 value ++ '\n' :: rest) :=
      ⟨_, rest, rfl, Json.isDigit_toDigits value⟩
    have noDate := isLine.date?_eq_none
    have isNumber := number?_toDigits small rest
    have notDouble : first ≠ '"' := different rfl
    have notSingle : first ≠ '\'' := different rfl
    rw [digits, List.cons_append] at noDate isNumber ⊢
    rw [value?]
    · simp [notDouble, notSingle, noDate, isNumber]
    · exact different rfl
    · exact different rfl
    · exact fun _ same _ => different rfl same
    · exact fun _ same _ => different rfl same

theorem isWritten_boolean (value : Bool) :
    IsWritten (.boolean value) (if value then "true" else "false").toList := by
  cases value with
  | false =>
      refine ⟨⟨'f', ['a', 'l', 's', 'e'], rfl, rfl⟩, fun rest enough _ => ?_⟩
      obtain ⟨fuel, rfl⟩ := Nat.exists_eq_add_one_of_ne_zero (Nat.ne_zero_of_lt enough)
      rfl
  | true =>
      refine ⟨⟨'t', ['r', 'u', 'e'], rfl, rfl⟩, fun rest enough _ => ?_⟩
      obtain ⟨fuel, rfl⟩ := Nat.exists_eq_add_one_of_ne_zero (Nat.ne_zero_of_lt enough)
      rfl

/-! ## Texts -/

theorem writeText_cons (text : List Char) :
    ∃ quote others, writeText text = quote :: others ∧ (quote = '"' ∨ quote = '\'') := by
  rw [writeText]
  cases quoteStyle text with
  | basic => exact ⟨_, _, rfl, Or.inl rfl⟩
  | literal => exact ⟨_, _, rfl, Or.inr rfl⟩
  | longBasic => exact ⟨_, _, rfl, Or.inl rfl⟩
  | longLiteral => exact ⟨_, _, rfl, Or.inr rfl⟩

theorem value?_writeText
    (text : String) (fuel depth : Nat) {rest : List Char}
    (noDouble : NoQuote '"' rest) (noSingle : NoQuote '\'' rest) :
    value? (fuel + 1) depth (writeText text.toList ++ rest) = some (.string text, rest) := by
  obtain ⟨quote, others, written, isQuote⟩ := writeText_cons text.toList
  have different : ∀ {other : Char}, other ≠ '"' → other ≠ '\'' → quote ≠ other := by
    rintro other notDouble notSingle rfl
    exact isQuote.elim notDouble notSingle
  have read := quoted?_writeText text.toList noDouble noSingle
  rw [written, List.cons_append] at read ⊢
  rw [value?]
  · simp [isQuote, read]
  · exact different (by decide) (by decide)
  · exact different (by decide) (by decide)
  · exact fun _ same _ => different (by decide) (by decide) same
  · exact fun _ same _ => different (by decide) (by decide) same

theorem isWritten_text (text : String) :
    IsWritten (.string text) (writeText text.toList) := by
  refine ⟨?_, fun rest enough _ => ?_⟩
  · obtain ⟨quote, others, written, isQuote⟩ := writeText_cons text.toList
    refine ⟨quote, others, written, ?_⟩
    rcases isQuote with rfl | rfl
    · rfl
    · rfl
  · obtain ⟨fuel, rfl⟩ := Nat.exists_eq_add_one_of_ne_zero (Nat.ne_zero_of_lt enough)
    exact value?_writeText text fuel _ (noQuote_cons (by decide) _) (noQuote_cons (by decide) _)

/-- Blanks, line breaks and comments are skipped up to the quotes of a text. -/
theorem skipTrivia_writeText (text rest : List Char) :
    skipTrivia false (writeText text ++ rest) = writeText text ++ rest := by
  obtain ⟨quote, others, written, isQuote⟩ := writeText_cons text
  rw [written, List.cons_append]
  rcases isQuote with rfl | rfl
  · rfl
  · rfl

theorem writeText_ne_bracket (text rest : List Char) :
    ∀ after, writeText text ++ rest ≠ ']' :: after := by
  intro after same
  obtain ⟨quote, others, written, isQuote⟩ := writeText_cons text
  rw [written, List.cons_append, List.cons.injEq] at same
  rw [same.1] at isQuote
  exact absurd isQuote (by decide)

/-- A text on a line of its own between the brackets of a list. -/
def textItem (text : String) : List Char :=
  "    ".toList ++ writeText text.toList ++ [',', '\n']

theorem elements?_textItems
    (texts : List String) {fuel : Nat} (depth : Nat) (rest : List Char)
    (enough : texts.length + 1 < fuel) :
    elements? fuel depth (skipTrivia false ('\n' :: (texts.flatMap textItem ++ ']' :: rest))) =
      some (texts.map .string, rest) := by
  obtain ⟨fuel, rfl⟩ := Nat.exists_eq_add_one_of_ne_zero (Nat.ne_zero_of_lt enough)
  induction texts generalizing fuel with
  | nil => rfl
  | cons text texts inductionHypothesis =>
      obtain ⟨fuel, rfl⟩ := Nat.exists_eq_add_one_of_ne_zero
        (Nat.ne_zero_of_lt (Nat.lt_of_succ_lt_succ enough))
      have read := inductionHypothesis fuel (Nat.lt_of_succ_lt_succ enough)
      have skipped : skipTrivia false ('\n' :: ((text :: texts).flatMap textItem ++ ']' :: rest)) =
          writeText text.toList ++ ',' :: '\n' :: (texts.flatMap textItem ++ ']' :: rest) := by
        rw [← skipTrivia_writeText]
        simp [textItem, skipTrivia, isSpace]
      have value : value? (fuel + 1) depth
            (writeText text.toList ++ ',' :: '\n' :: (texts.flatMap textItem ++ ']' :: rest)) =
          some (.string text, ',' :: '\n' :: (texts.flatMap textItem ++ ']' :: rest)) :=
        value?_writeText text fuel depth (noQuote_cons (by decide) _) (noQuote_cons (by decide) _)
      have atComma : skipTrivia false
          (',' :: '\n' :: (texts.flatMap textItem ++ ']' :: rest)) =
            ',' :: '\n' :: (texts.flatMap textItem ++ ']' :: rest) := rfl
      rw [skipped, elements?]
      · simp [value, atComma, read]
      · exact writeText_ne_bracket _ _

theorem length_le_textItems (texts : List String) :
    texts.length ≤ (texts.flatMap textItem).length := by
  induction texts with
  | nil => exact Nat.le_refl 0
  | cons text texts inductionHypothesis =>
      simp only [List.flatMap_cons, List.length_append, List.length_cons, textItem]
      omega

theorem value?_bracket
    {fuel depth : Nat} {elements : List Toml} {rest : List Char} (nested : 0 < depth)
    (read : elements? fuel (depth - 1) (skipTrivia false text) = some (elements, rest)) :
    value? (fuel + 1) depth ('[' :: text) = some (.array elements, rest) := by
  simp [value?, guard, nested, read]

/-- A single text stands on the line of the brackets. -/
theorem elements?_single (text : String) (fuel depth : Nat) (rest : List Char) :
    elements? (fuel + 2) depth (skipTrivia false (writeText text.toList ++ ']' :: rest)) =
      some ([.string text], rest) := by
  have value : value? (fuel + 1) depth (writeText text.toList ++ ']' :: rest) =
      some (.string text, ']' :: rest) :=
    value?_writeText text fuel depth (noQuote_cons (by decide) _) (noQuote_cons (by decide) _)
  have atBracket : skipTrivia false (']' :: rest) = ']' :: rest := rfl
  rw [skipTrivia_writeText, elements?]
  · simp [value, atBracket]
  · exact writeText_ne_bracket _ _

theorem isWritten_texts (texts : List String) :
    IsWritten (.array (texts.map .string)) (writeTexts texts) := by
  cases texts with
  | nil =>
      refine ⟨⟨'[', [']'], rfl, rfl⟩, fun {fuel} _ rest enough nested => ?_⟩
      rw [writeTexts, List.length_cons, List.length_singleton] at enough
      obtain ⟨fuel, rfl⟩ : ∃ spare, fuel = spare + 2 := ⟨fuel - 2, by omega⟩
      exact value?_bracket nested rfl
  | cons first texts =>
      cases texts with
      | nil =>
          refine ⟨⟨'[', _, rfl, rfl⟩, fun {fuel depth} rest enough nested => ?_⟩
          have longer : 3 ≤ fuel := by
            simp only [writeTexts, List.length_cons, List.length_append] at enough
            omega
          obtain ⟨fuel, rfl⟩ : ∃ spare, fuel = spare + 3 := ⟨fuel - 3, by omega⟩
          rw [writeTexts, List.cons_append, List.append_assoc]
          exact value?_bracket nested (elements?_single first fuel (depth - 1) ('\n' :: rest))
      | cons second texts =>
          have layout : writeTexts (first :: second :: texts) =
            '[' :: '\n' :: ((first :: second :: texts).flatMap textItem ++ [']']) := rfl
          refine ⟨⟨'[', _, layout, rfl⟩, fun {fuel depth} rest enough nested => ?_⟩
          have longer := length_le_textItems (first :: second :: texts)
          rw [layout] at enough ⊢
          simp only [List.length_cons, List.length_append] at enough longer
          obtain ⟨fuel, rfl⟩ := Nat.exists_eq_add_one_of_ne_zero (Nat.ne_zero_of_lt enough)
          have enoughLeft : (first :: second :: texts).length + 1 < fuel := by
            simp only [List.length_cons]
            omega
          have read := elements?_textItems _ (depth - 1) ('\n' :: rest) enoughLeft
          simp only [List.cons_append, List.append_assoc, List.nil_append]
          exact value?_bracket nested read

end LectureQuiz.Toml
