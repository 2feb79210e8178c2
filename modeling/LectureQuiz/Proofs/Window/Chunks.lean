import Mathlib.Order.Bounds.Basic
import LectureQuiz.Proofs.Text.Words
import LectureQuiz.Proofs.Window

/-!
# Windows from what is left of the text

Every window is told by the text that is left at its start: it ends at the last
line feed within its bound that is far enough from the start, and at the bound if
there is none. The windows of a text are the only way to cut it so, and trimming
them loses blanks only.
-/

namespace LectureQuiz.Window

open LectureQuiz.Text

variable {bounds : Bounds} {text : List Char}

theorem lastBreak?_eq_none_iff :
    lastBreak? text = none ↔ ∀ offset : Nat, text[offset]? ≠ some '\n' := by
  induction text with
  | nil => simp [lastBreak?]
  | cons character rest inductionHypothesis =>
      constructor
      · intro nowhere offset
        rw [lastBreak?] at nowhere
        split at nowhere
        · contradiction
        · rename_i noneLater
          cases offset with
          | zero =>
              simpa using nowhere
          | succ offset =>
              rw [List.getElem?_cons_succ]
              exact inductionHypothesis.1 noneLater offset
      · intro nowhere
        have noneLater : lastBreak? rest = none :=
          inductionHypothesis.2 fun offset => by
            simpa using nowhere (offset + 1)
        have notHere : character ≠ '\n' := by simpa using nowhere 0
        rw [lastBreak?, noneLater]
        exact if_neg notHere

theorem isGreatest_of_lastBreak?
    {offset : Nat} (last : lastBreak? text = some offset) :
    IsGreatest {offset : Nat | text[offset]? = some '\n'} offset := by
  induction text generalizing offset with
  | nil => exact absurd last (by simp [lastBreak?])
  | cons character rest inductionHypothesis =>
      rw [lastBreak?] at last
      split at last
      · rename_i later lastLater
        have greatest := inductionHypothesis lastLater
        cases last
        refine ⟨by simpa using greatest.1, ?_⟩
        intro other isBreak
        cases other with
        | zero => omega
        | succ other =>
            have bound : other ≤ later :=
              greatest.2 (by simpa using isBreak)
            omega
      · rename_i noneLater
        split at last
        · rename_i isFeed
          cases last
          refine ⟨by simp [isFeed], ?_⟩
          intro other isBreak
          cases other with
          | zero => exact le_rfl
          | succ other =>
              have notLater := lastBreak?_eq_none_iff.1 noneLater other
              exact absurd (by simpa using isBreak) notLater
        · contradiction

/-- Whether a window may end at an offset before its bound: at a line feed that
is not at its start, half the least length away or further. -/
def IsSoftBreak (bounds : Bounds) (window : List Char) (offset : Nat) : Prop :=
  window[offset]? = some '\n' ∧ 1 ≤ offset ∧
    bounds.minLength.toNat / 2 ≤ offset

/-- What a text is cut by first: what is within the bound, up to the last soft
break in it if there is one. -/
structure IsFirstWindow
    (bounds : Bounds) (text window : List Char) : Prop where
  eq_of_isGreatest : ∀ offset,
    IsGreatest
      {offset | IsSoftBreak bounds (text.take bounds.maxLength.toNat) offset}
      offset →
    window = (text.take bounds.maxLength.toNat).take offset
  eq_of_forall_not :
    (∀ offset,
      ¬IsSoftBreak bounds (text.take bounds.maxLength.toNat) offset) →
    window = text.take bounds.maxLength.toNat

theorem softStart_le_iff {offset : Nat} :
    bounds.softStart ≤ offset ↔
      1 ≤ offset ∧ bounds.minLength.toNat / 2 ≤ offset := by
  rw [Bounds.softStart]
  omega

/-- The last line feed is the last soft break, or there is no soft break. -/
theorem cutLength_cases
    (positive : 1 ≤ bounds.maxLength.toNat) (text : List Char) :
    let window := text.take bounds.maxLength.toNat
    (∃ offset, IsGreatest {offset | IsSoftBreak bounds window offset} offset ∧
      text.take (cutLength bounds text) = window.take offset) ∨
    (∀ offset, ¬IsSoftBreak bounds window offset) ∧
      text.take (cutLength bounds text) = window := by
  intro window
  have sizeEq : bounds.size = bounds.maxLength.toNat := Nat.max_eq_left positive
  have takeWindow : text.take window.length = window := by
    rw [List.length_take, List.take_eq_take_iff]
    omega
  simp only [cutLength, sizeEq]
  split
  · rename_i noBreak
    have nowhere := lastBreak?_eq_none_iff.1 noBreak
    exact Or.inr ⟨fun offset isSoft => nowhere offset isSoft.1, takeWindow⟩
  · rename_i last lastEq
    have greatest := isGreatest_of_lastBreak? lastEq
    have inside := (List.getElem?_eq_some_iff.1 greatest.1).1
    split
    · rename_i far
      refine Or.inl ⟨last, ⟨?_, ?_⟩, ?_⟩
      · exact ⟨greatest.1, softStart_le_iff.1 far⟩
      · exact fun offset isSoft => greatest.2 isSoft.1
      · rw [List.length_take] at inside
        rw [List.take_take, Nat.min_eq_left (by omega)]
    · rename_i near
      refine Or.inr ⟨fun offset isSoft => ?_, takeWindow⟩
      have atMost := greatest.2 isSoft.1
      have far := softStart_le_iff.2 isSoft.2
      omega

theorem isFirstWindow_iff
    (positive : 1 ≤ bounds.maxLength.toNat) {window : List Char} :
    IsFirstWindow bounds text window ↔
      window = text.take (cutLength bounds text) := by
  rcases cutLength_cases positive text with
    ⟨last, greatest, cutEq⟩ | ⟨nowhere, cutEq⟩
  · rw [cutEq]
    constructor
    · exact fun first => first.eq_of_isGreatest last greatest
    · rintro rfl
      refine ⟨fun offset alsoGreatest => ?_, fun nowhere => ?_⟩
      · rw [greatest.unique alsoGreatest]
      · exact absurd greatest.1 (nowhere last)
  · rw [cutEq]
    constructor
    · exact fun first => first.eq_of_forall_not nowhere
    · rintro rfl
      exact ⟨fun offset greatest => absurd greatest.1 (nowhere offset),
        fun _ => rfl⟩

/-- Cutting a text into windows: they make it up, and each of them is the first
window of what is left of the text at its start. -/
structure IsWindowing
    (bounds : Bounds) (text : List Char) (windows : List (List Char)) :
    Prop where
  flatten_eq : windows.flatten = text
  window : ∀ before window after, windows = before ++ window :: after →
    window ≠ [] ∧ window.length ≤ bounds.maxLength.toNat ∧
      IsFirstWindow bounds (window :: after).flatten window

theorem isWindowing_nil : IsWindowing bounds [] [] :=
  ⟨rfl, fun before window after whole => by simp at whole⟩

theorem isWindowing_cons_iff
    {window : List Char} {rest : List (List Char)} :
    IsWindowing bounds text (window :: rest) ↔
      window ≠ [] ∧ window.length ≤ bounds.maxLength.toNat ∧
        IsFirstWindow bounds text window ∧
        ∃ left, text = window ++ left ∧ IsWindowing bounds left rest := by
  constructor
  · intro windowing
    obtain ⟨notEmpty, short, first⟩ := windowing.window [] window rest rfl
    rw [windowing.flatten_eq] at first
    refine ⟨notEmpty, short, first, rest.flatten, ?_, rfl, ?_⟩
    · exact windowing.flatten_eq.symm
    · rintro before other after rfl
      exact windowing.window (window :: before) other after rfl
  · rintro ⟨notEmpty, short, first, left, rfl, windowing⟩
    refine ⟨by rw [List.flatten_cons, windowing.flatten_eq], ?_⟩
    intro before other after whole
    cases before with
    | nil =>
        rw [List.nil_append, List.cons.injEq] at whole
        obtain ⟨rfl, rfl⟩ := whole
        rw [List.flatten_cons, windowing.flatten_eq]
        exact ⟨notEmpty, short, first⟩
    | cons head before =>
        rw [List.cons_append, List.cons.injEq] at whole
        exact windowing.window before other after whole.2

theorem cutLength_le
    (positive : 1 ≤ bounds.maxLength.toNat) (text : List Char) :
    (text.take (cutLength bounds text)).length ≤ bounds.maxLength.toNat := by
  rcases cutLength_cases positive text with ⟨last, _, cutEq⟩ | ⟨_, cutEq⟩
  · rw [cutEq, List.length_take, List.length_take]
    omega
  · rw [cutEq, List.length_take]
    omega

theorem isWindowing_split
    (positive : 1 ≤ bounds.maxLength.toNat) (text : List Char) :
    IsWindowing bounds text (split bounds text) := by
  fun_induction split bounds text with
  | case1 => exact isWindowing_nil
  | case2 character rest length inductionHypothesis =>
      have cutPos := cutLength_pos bounds (List.cons_ne_nil character rest)
      refine isWindowing_cons_iff.2 ⟨?_, cutLength_le positive _,
        (isFirstWindow_iff positive).2 rfl, _,
        (List.take_append_drop _ _).symm, inductionHypothesis⟩
      rw [← List.length_pos_iff, List.length_take, List.length_cons]
      omega

/-- A text is cut into windows in one way only. -/
theorem IsWindowing.eq_split
    (positive : 1 ≤ bounds.maxLength.toNat) {windows : List (List Char)}
    (windowing : IsWindowing bounds text windows) :
    windows = split bounds text := by
  induction windows generalizing text with
  | nil =>
      rw [← windowing.flatten_eq, List.flatten_nil, split]
  | cons window rest inductionHypothesis =>
      obtain ⟨notEmpty, _, first, left, rfl, windowingLeft⟩ :=
        isWindowing_cons_iff.1 windowing
      have windowEq := (isFirstWindow_iff positive).1 first
      have leftEq :
          left = (window ++ left).drop (cutLength bounds (window ++ left)) := by
        have whole := List.take_append_drop
          (cutLength bounds (window ++ left)) (window ++ left)
        rw [← windowEq] at whole
        exact (List.append_cancel_left whole).symm
      have textEq : ∃ character rest, window ++ left = character :: rest :=
        List.exists_cons_of_ne_nil (by simp [notEmpty])
      rw [inductionHypothesis windowingLeft]
      obtain ⟨character, others, textEq⟩ := textEq
      rw [textEq] at windowEq leftEq ⊢
      rw [split, ← windowEq, ← leftEq]

/-- Trimming takes blanks only. -/
theorem filter_trim (text : List Char) :
    (trim text).filter (!isBlank ·) = text.filter (!isBlank ·) :=
  filter_strip (fun _ blank => blank) text

theorem filter_flatten_trim (windows : List (List Char)) :
    ((windows.map trim).filter (· ≠ [])).flatten.filter (!isBlank ·) =
      windows.flatten.filter (!isBlank ·) := by
  induction windows with
  | nil => rfl
  | cons window rest inductionHypothesis =>
      rw [List.flatten_cons, List.filter_append, ← inductionHypothesis,
        ← filter_trim window, List.map_cons]
      by_cases empty : trim window = []
      · simp [empty]
      · rw [List.filter_cons_of_pos (by simpa using empty),
          List.flatten_cons, List.filter_append]

theorem chunk_of_mem
    (positive : 1 ≤ bounds.maxLength.toNat) {chunk : List Char}
    (member : chunk ∈ chunks bounds text) :
    trim chunk = chunk ∧ chunk ≠ [] ∧
      chunk.length ≤ bounds.maxLength.toNat := by
  obtain ⟨inMap, notEmpty⟩ := List.mem_filter.1 member
  obtain ⟨window, inWindows, rfl⟩ := List.mem_map.1 inMap
  obtain ⟨before, after, whole⟩ := List.append_of_mem inWindows
  have short :=
    ((isWindowing_split positive text).window before window after whole).2.1
  exact ⟨strip_idempotent window, by simpa using notEmpty,
    (length_strip_le isBlank window).trans short⟩

/-- Chunking ends within the range of positions. Its chunks are the trimmed
windows that are not empty, of the one way to cut the text into windows, and no
character but blanks is lost. -/
theorem chunks_of_windowing
    (positive : 1 ≤ bounds.maxLength.toNat)
    (short : text.length + bounds.maxLength.toNat < UInt64.size) :
    inRange bounds text = true ∧
      (∃ windows, IsWindowing bounds text windows ∧
        (∀ other, IsWindowing bounds text other → other = windows) ∧
        chunks bounds text = (windows.map trim).filter (· ≠ [])) ∧
      (∀ chunk ∈ chunks bounds text,
        trim chunk = chunk ∧ chunk ≠ [] ∧
          chunk.length ≤ bounds.maxLength.toNat) ∧
      (chunks bounds text).flatten.filter (!isBlank ·) =
        text.filter (!isBlank ·) := by
  refine ⟨inRange_of_length ?_, ⟨split bounds text, ?_, ?_, rfl⟩, ?_, ?_⟩
  · rw [Bounds.size, Nat.max_eq_left positive]
    exact short
  · exact isWindowing_split positive text
  · exact fun other windowing => windowing.eq_split positive
  · exact fun chunk member => chunk_of_mem positive member
  · rw [chunks, filter_flatten_trim, flatten_split]

theorem chunks_of_windowing_sample :
    inRange ⟨5, 2⟩ "ab\n\ncd".toList = true ∧
      ∀ chunk ∈ chunks ⟨5, 2⟩ "ab\n\ncd".toList, chunk.length ≤ 5 := by
  have chunksOf :=
    @chunks_of_windowing ⟨5, 2⟩ "ab\n\ncd".toList (by decide) (by decide)
  exact ⟨chunksOf.1, fun chunk member => (chunksOf.2.2.1 chunk member).2.2⟩

end LectureQuiz.Window
