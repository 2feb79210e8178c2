import Mathlib.Data.Option.Basic
import Mathlib.Tactic.SplitIfs
import LectureQuiz.Toml.Writer

/-!
# Quoted texts are read back

A text is written in the first of four forms that can hold it, and every form reads back
as the text. What follows the closing quotes must not start with a quote, because up to
two quotes more would belong to the text.
-/

namespace LectureQuiz.Toml

open LectureQuiz.Text

variable {character : Char} {text body written after rest : List Char} {fuel : Nat}

/-- The characters behind a backslash that stand for a character. They do not make the
backslash join two lines. -/
structure IsEscape (written : List Char) (character : Char) : Prop where
  reads (after : List Char) : escape? (written ++ after) = some (character, after)
  joinsNothing (after : List Char) :
    startsWithBreak ((written ++ after).dropWhile isSpace) = false

theorem hexValue?_upperHexDigit :
    ∀ value < 16, hexValue? (upperHexDigit value) = some value := by
  decide

theorem scalar?_toNat (character : Char) : scalar? character.toNat = some character := by
  have isValid : character.toNat.isValidChar := character.valid
  rw [scalar?, if_pos isValid, Char.ofNat_toNat]

theorem toNat_le_of_needsCode (control : needsCode character = true) :
    character.toNat ≤ 0x7F := by
  simp only [needsCode, isInline, Bool.and_eq_true, Bool.not_eq_true', Bool.or_eq_false_iff,
    Bool.and_eq_false_iff, decide_eq_false_iff_not, bne_eq_false_iff_eq] at control
  omega

theorem isEscape_code (control : needsCode character = true) :
    IsEscape ['u', '0', '0', upperHexDigit (character.toNat / 16),
      upperHexDigit (character.toNat % 16)] character where
  reads after := by
    have small := toNat_le_of_needsCode control
    have high := hexValue?_upperHexDigit (character.toNat / 16) (by omega)
    have low := hexValue?_upperHexDigit (character.toNat % 16) (by omega)
    have zero : hexValue? '0' = some 0 := rfl
    have value : 16 * (character.toNat / 16) + character.toNat % 16 = character.toNat :=
      Nat.div_add_mod _ _
    simp [escape?, hexNumber?, zero, high, low, value, scalar?_toNat]
  joinsNothing _ := rfl

/-- A character between double quotes is written by an escape or stands for itself. -/
theorem escapeChar_cases (keepsBreaks : Bool) (character : Char) :
    (∃ written, escapeChar keepsBreaks character = '\\' :: written ∧
      IsEscape written character) ∨
    (escapeChar keepsBreaks character = [character] ∧ character ≠ '\\' ∧
      (isInline character = true ∨ keepsBreaks = true ∧ character = '\n')) := by
  by_cases backspace : character = '\x08'
  · subst backspace
    exact Or.inl ⟨['b'], rfl, fun _ => rfl, fun _ => rfl⟩
  by_cases tab : character = '\t'
  · subst tab
    exact Or.inl ⟨['t'], rfl, fun _ => rfl, fun _ => rfl⟩
  by_cases formFeed : character = '\x0c'
  · subst formFeed
    exact Or.inl ⟨['f'], rfl, fun _ => rfl, fun _ => rfl⟩
  by_cases carriageReturn : character = '\r'
  · subst carriageReturn
    exact Or.inl ⟨['r'], rfl, fun _ => rfl, fun _ => rfl⟩
  by_cases backslash : character = '\\'
  · subst backslash
    exact Or.inl ⟨['\\'], rfl, fun _ => rfl, fun _ => rfl⟩
  by_cases lineFeed : character = '\n'
  · subst lineFeed
    cases keepsBreaks with
    | false => exact Or.inl ⟨['n'], rfl, fun _ => rfl, fun _ => rfl⟩
    | true => exact Or.inr ⟨rfl, by decide, Or.inr ⟨rfl, rfl⟩⟩
  rw [escapeChar, if_neg backspace, if_neg tab, if_neg formFeed, if_neg carriageReturn,
    if_neg backslash, if_neg lineFeed]
  by_cases control : needsCode character = true
  · rw [if_pos control]
    exact Or.inl ⟨_, rfl, isEscape_code control⟩
  · rw [if_neg control]
    refine Or.inr ⟨rfl, backslash, Or.inl ?_⟩
    simpa [needsCode, lineFeed] using control

theorem head?_escapeChar_ne
    (keepsBreaks : Bool) {other : Char} (notBackslash : other ≠ '\\')
    (different : character ≠ other) (after : List Char) :
    (escapeChar keepsBreaks character ++ after).head? ≠ some other := by
  rcases escapeChar_cases keepsBreaks character with ⟨written, isWritten, _⟩ | ⟨isWritten, _⟩
  · rw [isWritten]
    simpa using notBackslash.symm
  · rw [isWritten]
    simpa using different

theorem basicBody?_escapeChar
    (notQuote : character ≠ '"') (read : basicBody? fuel after = some (body, rest)) :
    basicBody? (fuel + 1) (escapeChar false character ++ after) =
      some (character :: body, rest) := by
  rcases escapeChar_cases false character with
    ⟨written, isWritten, isEscape⟩ | ⟨isWritten, notBackslash, inline⟩
  · rw [isWritten, List.cons_append]
    simp [basicBody?, isEscape.reads, read]
  · have isInline : isInline character = true := inline.resolve_right (by simp)
    rw [isWritten, List.singleton_append]
    simp [basicBody?, guard, isInline, read]

theorem basicBody?_escapeBody (rest : List Char) (enough : text.length < fuel) :
    basicBody? fuel (escapeBody false 0 0 text ++ '"' :: rest) = some (text, rest) := by
  induction text generalizing fuel with
  | nil =>
      obtain ⟨fuel, rfl⟩ := Nat.exists_eq_add_one_of_ne_zero (Nat.ne_of_gt enough)
      rfl
  | cons character text inductionHypothesis =>
      obtain ⟨fuel, rfl⟩ := Nat.exists_eq_add_one_of_ne_zero (Nat.ne_zero_of_lt enough)
      have read := inductionHypothesis (Nat.lt_of_succ_lt_succ enough)
      by_cases quote : character = '"'
      · subst quote
        simp [escapeBody, basicBody?, escape?, read]
      · rw [escapeBody, if_neg quote, List.append_assoc]
        exact basicBody?_escapeChar quote read

theorem length_le_escapeBody (keepsBreaks : Bool) (allowed run : Nat) (text : List Char) :
    text.length ≤ (escapeBody keepsBreaks allowed run text).length := by
  induction text generalizing run with
  | nil => exact Nat.zero_le _
  | cons character text inductionHypothesis =>
      have more := inductionHypothesis (run + 1)
      have fresh := inductionHypothesis 0
      have notEmpty : 0 < (escapeChar keepsBreaks character).length := by
        rcases escapeChar_cases keepsBreaks character with ⟨_, isWritten, _⟩ | ⟨isWritten, _⟩
        · rw [isWritten]
          exact Nat.zero_lt_succ _
        · rw [isWritten]
          exact Nat.zero_lt_one
      rw [escapeBody]
      split
      · split
        · exact Nat.succ_le_succ more
        · simp only [List.length_cons]
          omega
      · simp only [List.length_cons, List.length_append]
        omega

/-- What is written between double quotes starts with a quote only where the text does
and the quote may stand for itself. -/
theorem head?_escapeBody_ne
    {allowed run : Nat} (keepsBreaks : Bool) (notEmpty : text ≠ [])
    (spent : text.head? = some '"' → allowed ≤ run) (after : List Char) :
    (escapeBody keepsBreaks allowed run text ++ after).head? ≠ some '"' := by
  cases text with
  | nil => exact absurd rfl notEmpty
  | cons character text =>
      by_cases quote : character = '"'
      · subst quote
        rw [escapeBody, if_pos rfl, if_neg (Nat.not_lt.2 (spent rfl))]
        exact of_decide_eq_true rfl
      · rw [escapeBody, if_neg quote, List.append_assoc]
        exact head?_escapeChar_ne keepsBreaks (by decide) quote _

theorem literalBody?_append
    (inline : ∀ character ∈ text, isInline character = true) (noQuote : '\'' ∉ text)
    (rest : List Char) :
    literalBody? (text ++ '\'' :: rest) = some (text, rest) := by
  induction text with
  | nil => rfl
  | cons character text inductionHypothesis =>
      rw [List.forall_mem_cons] at inline
      rw [List.mem_cons, not_or] at noQuote
      have read := inductionHypothesis inline.2 noQuote.2
      have notQuote : character ≠ '\'' := Ne.symm noQuote.1
      simp [literalBody?, guard, inline.1, read]

/-- The text does not start with the given quote. -/
def NoQuote (quote : Char) (text : List Char) : Prop :=
  text.head? ≠ some quote

theorem noQuote_cons
    {quote first : Char} (different : first ≠ quote) (others : List Char) :
    NoQuote quote (first :: others) := by
  simpa [NoQuote] using different

theorem extraQuotes_of_noQuote
    {quote : Char} (noQuote : NoQuote quote rest) : extraQuotes quote rest = ([], rest) := by
  cases rest with
  | nil => rfl
  | cons first rest =>
      have different : first ≠ quote := by simpa [NoQuote] using noQuote
      cases rest with
      | nil => rw [extraQuotes, if_neg different]
      | cons second rest => rw [extraQuotes, if_neg different]

theorem extraQuotes_one
    {quote : Char} (noQuote : NoQuote quote rest) :
    extraQuotes quote (quote :: rest) = ([quote], rest) := by
  cases rest with
  | nil => rw [extraQuotes, if_pos rfl]
  | cons first rest =>
      have different : first ≠ quote := by simpa [NoQuote] using noQuote
      rw [extraQuotes, if_pos rfl, if_neg different]

theorem extraQuotes_two (quote : Char) (rest : List Char) :
    extraQuotes quote (quote :: quote :: rest) = ([quote, quote], rest) := by
  rw [extraQuotes, if_pos rfl, if_pos rfl]

/-! ## Between three double quotes -/

/-- A character that stands for itself. A quote does so where it does not start the
closing ones. -/
theorem longBasicBody?_plain
    (plain : isInline character = true ∨ character = '\n') (notBackslash : character ≠ '\\')
    (belongs : character = '"' → ∀ more, after ≠ '"' :: '"' :: more)
    (read : longBasicBody? fuel after = some (body, rest)) :
    longBasicBody? (fuel + 1) (character :: after) = some (character :: body, rest) := by
  have notReturn : character ≠ '\r' := by
    rintro rfl
    exact absurd plain (by decide)
  rw [longBasicBody?]
  · simp [guard, plain, read]
  · exact fun more quote closes => belongs quote more closes
  · exact notBackslash
  · exact fun more isReturn _ => notReturn isReturn

theorem longBasicBody?_escapeChar
    (notQuote : character ≠ '"') (read : longBasicBody? fuel after = some (body, rest)) :
    longBasicBody? (fuel + 1) (escapeChar true character ++ after) =
      some (character :: body, rest) := by
  rcases escapeChar_cases true character with
    ⟨written, isWritten, isEscape⟩ | ⟨isWritten, notBackslash, plain⟩
  · rw [isWritten, List.cons_append]
    simp [longBasicBody?, isEscape.reads, isEscape.joinsNothing, read]
  · rw [isWritten, List.singleton_append]
    exact longBasicBody?_plain (plain.imp_right And.right) notBackslash
      (fun quote => absurd quote notQuote) read

/-- Behind a quote that stands for itself, two more are met only at the end of the text. -/
theorem escapeBody_closes
    {run : Nat} {more : List Char} (started : 0 < run)
    (closes : escapeBody true 2 run text ++ '"' :: '"' :: '"' :: rest = '"' :: '"' :: more) :
    text = [] ∨ text = ['"'] ∧ run < 2 := by
  have head := congrArg List.head? closes
  cases text with
  | nil => exact Or.inl rfl
  | cons character text =>
      by_cases standing : character = '"' ∧ run < 2
      · obtain ⟨rfl, few⟩ := standing
        rw [escapeBody, if_pos rfl, if_pos few, List.cons_append, List.cons.injEq] at closes
        have nextHead := congrArg List.head? closes.2
        by_cases isEmpty : text = []
        · exact Or.inr ⟨congrArg _ isEmpty, few⟩
        · exact absurd nextHead
            (head?_escapeBody_ne true isEmpty (fun _ => Nat.succ_le_succ started) _)
      · have spent : (character :: text).head? = some '"' → 2 ≤ run := fun quote =>
          Nat.not_lt.1 fun few => standing ⟨Option.some.inj quote, few⟩
        exact absurd head (head?_escapeBody_ne true (List.cons_ne_nil _ _) spent _)

/-- Every step of the reader takes one character of the text, so that its length bounds
the fuel, however it is written. -/
theorem longBasicBody?_escapeBody
    {run : Nat} (noQuote : NoQuote '"' rest) (enough : text.length < fuel) :
    longBasicBody? fuel (escapeBody true 2 run text ++ '"' :: '"' :: '"' :: rest) =
      some (text, rest) := by
  induction text generalizing fuel run with
  | nil =>
      obtain ⟨fuel, rfl⟩ := Nat.exists_eq_add_one_of_ne_zero (Nat.ne_of_gt enough)
      change some (extraQuotes '"' rest) = _
      rw [extraQuotes_of_noQuote noQuote]
  | cons character text inductionHypothesis =>
      obtain ⟨fuel, rfl⟩ := Nat.exists_eq_add_one_of_ne_zero (Nat.ne_zero_of_lt enough)
      have enoughLeft := Nat.lt_of_succ_lt_succ enough
      by_cases quote : character = '"'
      · subst quote
        by_cases few : run < 2
        · rw [escapeBody, if_pos rfl, if_pos few]
          -- The last quotes of the text are read together with the closing ones.
          by_cases isLast : text = [] ∨ text = ['"'] ∧ run + 1 < 2
          · rcases isLast with rfl | ⟨rfl, fewer⟩
            · change some (extraQuotes '"' ('"' :: rest)) = _
              rw [extraQuotes_one noQuote]
            · rw [escapeBody, if_pos rfl, if_pos fewer]
              change some (extraQuotes '"' ('"' :: '"' :: rest)) = _
              rw [extraQuotes_two]
          · have belongs : ∀ more, escapeBody true 2 (run + 1) text ++ '"' :: '"' :: '"' :: rest ≠
                '"' :: '"' :: more := fun _ closes =>
              isLast (escapeBody_closes (Nat.succ_pos run) closes)
            exact longBasicBody?_plain (Or.inl rfl) (by decide) (fun _ => belongs)
              (inductionHypothesis enoughLeft)
        · have read : longBasicBody? fuel
              (escapeBody true 2 0 text ++ '"' :: '"' :: '"' :: rest) = some (text, rest) :=
            inductionHypothesis enoughLeft
          have joinsNothing (after : List Char) :
              startsWithBreak (('"' :: after).dropWhile isSpace) = false := rfl
          rw [escapeBody, if_pos rfl, if_neg few]
          simp [longBasicBody?, escape?, joinsNothing, read]
      · rw [escapeBody, if_neg quote, List.append_assoc]
        exact longBasicBody?_escapeChar quote (inductionHypothesis enoughLeft)

theorem le_longestRun (sought : Char) (current : Nat) (text : List Char) :
    current ≤ longestRun sought current text := by
  induction text generalizing current with
  | nil => exact Nat.le_refl current
  | cons character text inductionHypothesis =>
      rw [longestRun]
      split
      · exact Nat.le_of_succ_le (inductionHypothesis (current + 1))
      · exact Nat.le_max_left _ _

theorem longestRun_zero_le (sought : Char) (current : Nat) (text : List Char) :
    longestRun sought 0 text ≤ longestRun sought current text := by
  have monotone : ∀ {fewer more : Nat}, fewer ≤ more →
      longestRun sought fewer text ≤ longestRun sought more text := by
    induction text with
    | nil => exact id
    | cons character text inductionHypothesis =>
        intro fewer more ordered
        rw [longestRun, longestRun]
        split
        · exact inductionHypothesis (Nat.succ_le_succ ordered)
        · omega
  exact monotone (Nat.zero_le current)

theorem longestRun_tail_le (sought character : Char) (text : List Char) :
    longestRun sought 0 text ≤ longestRun sought 0 (character :: text) := by
  rw [longestRun]
  split
  · exact longestRun_zero_le sought 1 text
  · exact Nat.le_max_right _ _

theorem not_mem_of_longestRun
    {sought : Char} (never : longestRun sought 0 text = 0) : sought ∉ text := by
  induction text with
  | nil => exact List.not_mem_nil
  | cons character text inductionHypothesis =>
      have neverLater := Nat.le_zero.1 (never ▸ longestRun_tail_le sought character text)
      rw [List.mem_cons, not_or]
      refine ⟨?_, inductionHypothesis neverLater⟩
      rintro rfl
      rw [longestRun, if_pos rfl] at never
      have once := le_longestRun sought (0 + 1) text
      omega

/-- Two quotes in front of the closing ones are at the end of the text, unless it has two
quotes itself. -/
theorem literal_closes
    {quote : Char} {more : List Char}
    (closes : text ++ quote :: quote :: quote :: rest = quote :: quote :: more) :
    text = [] ∨ text = [quote] ∨ ∃ later, text = quote :: quote :: later := by
  cases text with
  | nil => exact Or.inl rfl
  | cons first text =>
      rw [List.cons_append, List.cons.injEq] at closes
      obtain ⟨rfl, closes⟩ := closes
      cases text with
      | nil => exact Or.inr (Or.inl rfl)
      | cons second later =>
          rw [List.cons_append, List.cons.injEq] at closes
          obtain ⟨rfl, _⟩ := closes
          exact Or.inr (Or.inr ⟨later, rfl⟩)

theorem longLiteralBody?_append
    (plain : ∀ character ∈ text, isInline character = true ∨ character = '\n')
    (few : longestRun '\'' 0 text ≤ 2) (noQuote : NoQuote '\'' rest) :
    longLiteralBody? (text ++ '\'' :: '\'' :: '\'' :: rest) = some (text, rest) := by
  induction text with
  | nil =>
      change some (extraQuotes '\'' rest) = _
      rw [extraQuotes_of_noQuote noQuote]
  | cons character text inductionHypothesis =>
      rw [List.forall_mem_cons] at plain
      have fewLater := Nat.le_trans (longestRun_tail_le '\'' character text) few
      have read := inductionHypothesis plain.2 fewLater
      by_cases closes : character = '\'' ∧
          ∃ more, text ++ '\'' :: '\'' :: '\'' :: rest = '\'' :: '\'' :: more
      · obtain ⟨rfl, more, closes⟩ := closes
        -- No third quote can follow in the text, which has no such run.
        rcases literal_closes closes with rfl | rfl | ⟨later, rfl⟩
        · change some (extraQuotes '\'' ('\'' :: rest)) = _
          rw [extraQuotes_one noQuote]
        · change some (extraQuotes '\'' ('\'' :: '\'' :: rest)) = _
          rw [extraQuotes_two]
        · have thrice := le_longestRun '\'' 3 later
          exact absurd (Nat.le_trans thrice few) (by decide)
      · have notReturn : character ≠ '\r' := by
          rintro rfl
          exact absurd plain.1 (by decide)
        rw [List.cons_append, longLiteralBody?]
        · simp [guard, plain.1, read]
        · exact fun more quote isClosing => closes ⟨quote, more, isClosing⟩
        · exact fun _ isReturn _ => notReturn isReturn

theorem dropBreak_openingBreak
    (noBreak : '\n' ∉ text → after.head? ≠ some '\n' ∧ after.head? ≠ some '\r') :
    dropBreak (openingBreak text ++ after) = after := by
  by_cases broken : '\n' ∈ text
  · rw [openingBreak, if_pos (List.contains_iff_mem.2 broken)]
    rfl
  · rw [openingBreak, if_neg (mt List.contains_iff_mem.1 broken), List.nil_append]
    obtain ⟨notFeed, notReturn⟩ := noBreak broken
    unfold dropBreak
    split
    · exact absurd rfl notFeed
    · exact absurd rfl notReturn
    · rfl

/-- Three quotes open a text that does not start with a line break of its own. -/
theorem head?_escapeBody_of_noBreak
    (noBreak : '\n' ∉ text) (after : List Char) :
    (escapeBody true 2 0 text ++ '"' :: after).head? ≠ some '\n' ∧
      (escapeBody true 2 0 text ++ '"' :: after).head? ≠ some '\r' := by
  cases text with
  | nil => exact ⟨of_decide_eq_true rfl, of_decide_eq_true rfl⟩
  | cons character text =>
      by_cases quote : character = '"'
      · subst quote
        exact ⟨of_decide_eq_true rfl, of_decide_eq_true rfl⟩
      · have notFeed : character ≠ '\n' := fun same => noBreak (same ▸ List.mem_cons_self)
        rw [escapeBody, if_neg quote, List.append_assoc]
        refine ⟨head?_escapeChar_ne true (by decide) notFeed _, ?_⟩
        by_cases isReturn : character = '\r'
        · subst isReturn
          exact of_decide_eq_true rfl
        · exact head?_escapeChar_ne true (by decide) isReturn _

theorem quoteStyle_literal (style : quoteStyle text = .literal) :
    text.any needsCode = false ∧ text.contains '\n' = false ∧ longestRun '\'' 0 text = 0 := by
  simp only [quoteStyle] at style
  split at style
  · exact absurd style (by decide)
  · split at style
    · rename_i fits
      simpa [and_assoc] using fits
    · split_ifs at style

theorem quoteStyle_longLiteral (style : quoteStyle text = .longLiteral) :
    text.any needsCode = false ∧ longestRun '\'' 0 text ≤ 2 := by
  simp only [quoteStyle] at style
  split_ifs at style with _ _ _ fits
  simpa using fits

theorem plain_of_any (uncoded : text.any needsCode = false) :
    ∀ character ∈ text, isInline character = true ∨ character = '\n' := by
  intro character member
  have plain := List.any_eq_false.1 uncoded character member
  by_cases lineFeed : character = '\n'
  · exact Or.inr lineFeed
  · exact Or.inl (by simpa [needsCode, lineFeed] using plain)

/-! ## Reading what is written -/

theorem quoted?_basic (noQuote : NoQuote '"' rest) :
    quoted? ('"' :: (escapeBody false 0 0 text ++ '"' :: rest)) = some (text, rest) := by
  have shape : ∀ more, escapeBody false 0 0 text ++ '"' :: rest ≠ '"' :: '"' :: more := by
    intro more opens
    by_cases isEmpty : text = []
    · subst isEmpty
      rw [escapeBody, List.nil_append, List.cons.injEq] at opens
      exact noQuote (congrArg List.head? opens.2)
    · exact head?_escapeBody_ne false isEmpty (fun _ => Nat.le_refl 0) _
        (congrArg List.head? opens)
  have longer := length_le_escapeBody false 0 0 text
  rw [quoted?]
  · refine basicBody?_escapeBody rest ?_
    rw [List.length_append]
    omega
  · exact shape

theorem quoted?_literal
    (inline : ∀ character ∈ text, isInline character = true) (absent : '\'' ∉ text)
    (noQuote : NoQuote '\'' rest) :
    quoted? ('\'' :: (text ++ '\'' :: rest)) = some (text, rest) := by
  rw [quoted?]
  · exact literalBody?_append inline absent rest
  · intro more opens
    cases text with
    | nil =>
        rw [List.nil_append, List.cons.injEq] at opens
        exact noQuote (congrArg List.head? opens.2)
    | cons character text =>
        rw [List.cons_append, List.cons.injEq] at opens
        exact absent (opens.1 ▸ List.mem_cons_self)

theorem quoted?_longBasic (noQuote : NoQuote '"' rest) :
    quoted? ('"' :: '"' :: '"' :: (openingBreak text ++
      (escapeBody true 2 0 text ++ '"' :: '"' :: '"' :: rest))) = some (text, rest) := by
  have longer := length_le_escapeBody true 2 0 text
  rw [quoted?, dropBreak_openingBreak fun noBreak => head?_escapeBody_of_noBreak noBreak _]
  refine longBasicBody?_escapeBody noQuote ?_
  simp only [List.length_append]
  omega

theorem quoted?_longLiteral
    (plain : ∀ character ∈ text, isInline character = true ∨ character = '\n')
    (few : longestRun '\'' 0 text ≤ 2) (noQuote : NoQuote '\'' rest) :
    quoted? ('\'' :: '\'' :: '\'' :: (openingBreak text ++
      (text ++ '\'' :: '\'' :: '\'' :: rest))) = some (text, rest) := by
  have noBreak (unbroken : '\n' ∉ text) :
      (text ++ '\'' :: '\'' :: '\'' :: rest).head? ≠ some '\n' ∧
        (text ++ '\'' :: '\'' :: '\'' :: rest).head? ≠ some '\r' := by
    cases text with
    | nil => exact ⟨of_decide_eq_true rfl, of_decide_eq_true rfl⟩
    | cons character text =>
        refine ⟨fun same => unbroken ?_, fun same => ?_⟩
        · rw [← Option.some.inj same]
          exact List.mem_cons_self
        · have isPlain := plain character List.mem_cons_self
          rw [Option.some.inj same] at isPlain
          exact absurd isPlain (by decide)
  rw [quoted?, dropBreak_openingBreak noBreak]
  exact longLiteralBody?_append plain few noQuote

/-- Every text is read back from the form that it is written in. -/
theorem quoted?_writeText
    (text : List Char) (noDouble : NoQuote '"' rest) (noSingle : NoQuote '\'' rest) :
    quoted? (writeText text ++ rest) = some (text, rest) := by
  rw [writeText]
  cases style : quoteStyle text with
  | basic => simpa using quoted?_basic noDouble
  | literal =>
      obtain ⟨uncoded, unbroken, never⟩ := quoteStyle_literal style
      have inline : ∀ character ∈ text, isInline character = true := fun character member =>
        (plain_of_any uncoded character member).resolve_right fun isFeed =>
          absurd (isFeed ▸ member) (by simpa using unbroken)
      simpa using quoted?_literal inline (not_mem_of_longestRun never) noSingle
  | longBasic => simpa using quoted?_longBasic noDouble
  | longLiteral =>
      obtain ⟨uncoded, few⟩ := quoteStyle_longLiteral style
      simpa using quoted?_longLiteral (plain_of_any uncoded) few noSingle

end LectureQuiz.Toml
