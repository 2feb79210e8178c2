import LectureQuiz.Config
import LectureQuiz.Proofs.Window.Chunks
import LectureQuiz.Span

namespace LectureQuiz

namespace Window

variable {bounds : Bounds} {text : List Char}

theorem mem_starts_iff {position start : Nat} {windows : List (List Char)} :
    start ∈ starts position windows ↔
      ∃ before window after, windows = before ++ window :: after ∧
        start = position + before.flatten.length := by
  induction windows generalizing position with
  | nil => simp [starts]
  | cons first rest inductionHypothesis =>
      rw [starts, List.mem_cons, inductionHypothesis]
      constructor
      · rintro (rfl | ⟨before, window, after, rfl, rfl⟩)
        · exact ⟨[], first, rest, rfl, rfl⟩
        · refine ⟨first :: before, window, after, rfl, ?_⟩
          rw [List.flatten_cons, List.length_append, Nat.add_assoc]
      · rintro ⟨before, window, after, whole, rfl⟩
        cases before with
        | nil => exact Or.inl rfl
        | cons head before =>
            rw [List.cons_append, List.cons.injEq] at whole
            obtain ⟨rfl, rfl⟩ := whole
            refine Or.inr ⟨before, window, after, rfl, ?_⟩
            rw [List.flatten_cons, List.length_append, Nat.add_assoc]

theorem inRange_iff :
    inRange bounds text = true ↔
      ∀ before window after, split bounds text = before ++ window :: after →
        before.flatten.length + bounds.size < UInt64.size := by
  rw [inRange, List.all_eq_true]
  simp only [mem_starts_iff, decide_eq_true_eq, Nat.zero_add]
  constructor
  · intro all before window after whole
    exact all _ ⟨before, window, after, whole, rfl⟩
  · rintro all start ⟨before, window, after, whole, rfl⟩
    exact all before window after whole

/-- No window starts behind the last one. -/
theorem inRange_iff_last :
    inRange bounds text = true ↔
      ∀ before last, split bounds text = before ++ [last] →
        before.flatten.length + bounds.size < UInt64.size := by
  rw [inRange_iff]
  constructor
  · exact fun all before last whole => all before last [] whole
  · intro ofLast before window after whole
    rcases List.eq_nil_or_concat' after with rfl | ⟨between, last, rfl⟩
    · exact ofLast before window whole
    · have bound := ofLast (before ++ window :: between) last (by simp [whole])
      rw [List.flatten_append, List.length_append] at bound
      omega

/-- A window ends behind its start, within its bound and within the text. -/
theorem window_inside
    (positive : 1 ≤ bounds.maxLength.toNat) {before after : List (List Char)}
    {window : List Char} (whole : split bounds text = before ++ window :: after) :
    let start := before.flatten.length
    let finish := (before ++ [window]).flatten.length
    start < finish ∧ finish ≤ start + bounds.maxLength.toNat ∧
      finish ≤ text.length := by
  have windowing := isWindowing_split positive text
  obtain ⟨notEmpty, short, _⟩ := windowing.window before window after whole
  have notNone := List.length_pos_iff.2 notEmpty
  have total := congrArg List.length windowing.flatten_eq
  rw [whole] at total
  simp only [List.flatten_append, List.flatten_cons, List.flatten_nil,
    List.length_append, List.length_nil] at total ⊢
  omega

end Window

theorem checkBounds_eq_ok_iff {bounds : Window.Bounds} :
    checkBounds bounds = .ok () ↔ 1 ≤ bounds.maxLength.toNat := by
  have isZero : bounds.maxLength = 0 ↔ bounds.maxLength.toNat = 0 :=
    UInt64.toNat_inj.symm
  rw [checkBounds]
  split
  · rename_i zero
    exact ⟨nofun, fun positive => absurd (isZero.1 zero) (by omega)⟩
  · rename_i notZero
    rw [isZero] at notZero
    exact ⟨fun _ => by omega, fun _ => rfl⟩

variable {bounds : Window.Bounds} {body : String}

theorem spans?_fixedWindow_eq_some_iff :
    spans? bounds .fixedWindow body = some (windowSpans bounds body) ↔
      Window.inRange bounds body.toList = true := by
  simp [spans?]

theorem spans?_fixedWindow_eq_none_iff :
    spans? bounds .fixedWindow body = none ↔
      ¬Window.inRange bounds body.toList = true := by
  simp [spans?]

/-- With accepted bounds a body is cut into windows exactly if the last of them starts
so early that its bound is a position of 64 bits. Every window ends behind its start,
within its bound and within the body. -/
theorem windowSpans_iff_last
    {bounds : Window.Bounds} (accepted : checkBounds bounds = .ok ()) (body : String) :
    (spans? bounds .fixedWindow body = some (windowSpans bounds body) ↔
        ∀ before last, Window.split bounds body.toList = before ++ [last] →
          before.flatten.length + bounds.maxLength.toNat < UInt64.size) ∧
      (spans? bounds .fixedWindow body = none ↔
        ∃ before last, Window.split bounds body.toList = before ++ [last] ∧
          UInt64.size ≤ before.flatten.length + bounds.maxLength.toNat) ∧
      ∀ before window after,
        Window.split bounds body.toList = before ++ window :: after →
          let start := before.flatten.length
          let finish := (before ++ [window]).flatten.length
          start < finish ∧ finish ≤ start + bounds.maxLength.toNat ∧
            finish ≤ body.toList.length := by
  have positive := checkBounds_eq_ok_iff.1 accepted
  have size : bounds.size = bounds.maxLength.toNat := Nat.max_eq_left positive
  have inRangeIff := @Window.inRange_iff_last bounds body.toList
  rw [size] at inRangeIff
  refine ⟨spans?_fixedWindow_eq_some_iff.trans inRangeIff, ?_, ?_⟩
  · rw [spans?_fixedWindow_eq_none_iff, inRangeIff]
    simp only [not_forall, not_lt, exists_prop]
  · exact fun before window after whole => Window.window_inside positive whole

theorem windowSpans_iff_last_sample :
    checkBounds ⟨5, 2⟩ = .ok () ∧
      spans? ⟨5, 2⟩ .fixedWindow "ab\n\ncd" =
        some (windowSpans ⟨5, 2⟩ "ab\n\ncd") ∧
      ∀ before last,
        Window.split ⟨5, 2⟩ "ab\n\ncd".toList = before ++ [last] →
          before.flatten.length + 5 < UInt64.size := by
  have accepted : checkBounds ⟨5, 2⟩ = .ok () := by decide
  have isCut : spans? ⟨5, 2⟩ .fixedWindow "ab\n\ncd" =
      some (windowSpans ⟨5, 2⟩ "ab\n\ncd") := by decide +kernel
  exact ⟨accepted, isCut, (windowSpans_iff_last accepted "ab\n\ncd").1.1 isCut⟩

/-- Bounds that are accepted need not cut every body: behind a line feed there is no
room for windows of the greatest length there is. -/
theorem spans?_eq_none_of_widest :
    checkBounds ⟨18446744073709551615, 0⟩ = .ok () ∧
      spans? ⟨18446744073709551615, 0⟩ .fixedWindow "a\nb" = none := by
  decide +kernel

end LectureQuiz
