import LectureQuiz.Proofs.Span.Content
import LectureQuiz.Proofs.Text.NormalForm

/-!
# Texts that fit into one window

A window ends at its last line feed also where all that is left of the text would fit
into it. A text that has a line feed at its end is not hurt by that: what is left behind
the first window is this line feed, and it is blank. So a normal form that fits into one
window gives one chunk, whatever length the soft breaks should come near to.
-/

namespace LectureQuiz

open LectureQuiz.Text

namespace Window

variable {bounds : Bounds} {text : List Char}

theorem lastBreak?_append_feed (text : List Char) :
    lastBreak? (text ++ ['\n']) = some text.length := by
  have isFeed : (text ++ ['\n'])[text.length]? = some '\n' := by simp
  cases last : lastBreak? (text ++ ['\n']) with
  | none => exact absurd isFeed (lastBreak?_eq_none_iff.1 last text.length)
  | some offset =>
      have greatest := isGreatest_of_lastBreak? last
      have atLeast : text.length ≤ offset := greatest.2 isFeed
      have inside := (List.getElem?_eq_some_iff.1 greatest.1).1
      rw [List.length_append, List.length_singleton] at inside
      rw [Option.some.injEq]
      omega

theorem cutLength_append_feed (fits : text.length + 1 ≤ bounds.size) :
    cutLength bounds (text ++ ['\n']) =
      if bounds.softStart ≤ text.length then text.length else text.length + 1 := by
  have isWindow : (text ++ ['\n']).take bounds.size = text ++ ['\n'] := by
    apply List.take_of_length_le
    rw [List.length_append, List.length_singleton]
    exact fits
  rw [cutLength, isWindow, lastBreak?_append_feed]
  simp only [List.length_append, List.length_singleton]

theorem split_of_ne_nil (bounds : Bounds) (notEmpty : text ≠ []) :
    split bounds text =
      text.take (cutLength bounds text) ::
        split bounds (text.drop (cutLength bounds text)) := by
  cases text with
  | nil => exact absurd rfl notEmpty
  | cons first rest => rw [split]

theorem split_of_near
    (fits : text.length + 1 ≤ bounds.size) (near : text.length < bounds.softStart) :
    split bounds (text ++ ['\n']) = [text ++ ['\n']] := by
  have isWhole : cutLength bounds (text ++ ['\n']) = (text ++ ['\n']).length := by
    rw [cutLength_append_feed fits, if_neg (by omega), List.length_append,
      List.length_singleton]
  rw [split_of_ne_nil bounds (by simp), isWhole, List.take_length, List.drop_length, split]

/-- What is left behind the first window is the line feed. It is too near for a break. -/
theorem split_of_far
    (fits : text.length + 1 ≤ bounds.size) (far : bounds.softStart ≤ text.length) :
    split bounds (text ++ ['\n']) = [text, ['\n']] := by
  have softPos : 0 < bounds.softStart := by
    rw [Bounds.softStart]
    omega
  have isText : cutLength bounds (text ++ ['\n']) = text.length := by
    rw [cutLength_append_feed fits, if_pos far]
  have lastWindow : split bounds ['\n'] = [['\n']] :=
    @split_of_near bounds [] bounds.size_pos softPos
  rw [split_of_ne_nil bounds (by simp), isText, List.take_left, List.drop_left, lastWindow]

theorem trim_append_feed (text : List Char) : trim (text ++ ['\n']) = trim text := by
  have feed : ∀ character ∈ ['\n'], isBlank character = true :=
    List.forall_mem_singleton.2 (by decide)
  exact @strip_of_all _ isBlank [] ['\n'] text nofun feed

/-- A text with a line feed at its end is one chunk if it fits into a window, and none if
it is blank. -/
theorem chunks_of_fits (fits : text.length + 1 ≤ bounds.size) :
    chunks bounds (text ++ ['\n']) =
      if trim (text ++ ['\n']) = [] then [] else [trim (text ++ ['\n'])] := by
  have noChunk : trim ['\n'] = [] := by decide
  rw [chunks]
  rcases Nat.lt_or_ge text.length bounds.softStart with near | far
  · rw [split_of_near fits near]
    by_cases blank : trim (text ++ ['\n']) = [] <;> simp [blank]
  · rw [split_of_far fits far, trim_append_feed]
    by_cases blank : trim text = [] <;> simp [blank, noChunk]

/-- Without the line feed at its end a text may be cut although it fits. -/
example : chunks ⟨5, 2⟩ "a\nb".toList = [['a'], ['b']] := by
  decide +kernel

theorem inRange_iff_of_fits
    (positive : 1 ≤ bounds.maxLength.toNat) (fits : text.length + 1 ≤ bounds.size) :
    inRange bounds (text ++ ['\n']) = true ↔
      (bounds.softStart ≤ text.length →
        text.length + bounds.maxLength.toNat < UInt64.size) := by
  have sizeEq : bounds.size = bounds.maxLength.toNat := Nat.max_eq_left positive
  have sizeLt : bounds.maxLength.toNat < UInt64.size := bounds.maxLength.toNat_lt
  rw [inRange, sizeEq]
  rcases Nat.lt_or_ge text.length bounds.softStart with near | far
  · rw [split_of_near fits near]
    simp only [starts, List.all_cons, List.all_nil, Bool.and_true, decide_eq_true_eq]
    omega
  · rw [split_of_far fits far]
    simp only [starts, List.all_cons, List.all_nil, Bool.and_true, Bool.and_eq_true,
      decide_eq_true_eq]
    omega

end Window

theorem exists_toList_normalize (raw : String) :
    ∃ text, (normalize raw).toList = text ++ ['\n'] :=
  ⟨_, String.toList_ofList⟩

theorem trim_normalize_eq_nil_iff {raw : String} :
    trim (normalize raw).toList = [] ↔ normalize raw = "\n" := by
  have again : normalizeChars (normalize raw).toList = (normalize raw).toList := by
    rw [Text.normalize, String.toList_ofList, normalizeChars_normalizeChars]
  rw [trim, strip_eq_nil_iff, ← normalizeChars_eq_feed_iff, again, ← String.toList_inj]
  rfl

theorem windowSpans_of_fits
    {bounds : Window.Bounds} {raw : String} (fits : (normalize raw).length ≤ bounds.size) :
    windowSpans bounds (normalize raw) =
      if normalize raw = "\n" then [] else [⟨none, none, trimmed (normalize raw)⟩] := by
  obtain ⟨text, whole⟩ := exists_toList_normalize raw
  rw [← String.length_toList, whole, List.length_append, List.length_singleton] at fits
  have areChunks := Window.chunks_of_fits fits
  rw [← whole] at areChunks
  simp only [trim_normalize_eq_nil_iff] at areChunks
  rw [windowSpans, areChunks]
  split
  · rfl
  · rfl

/-- A document in normal form that has no stamp and fits into one window is never split,
whatever length the soft breaks should come near to: it has no segment if its body is a
line feed, and otherwise one segment, the trimmed body. Only where a window ends at the
line feed at the end of the body, the bound of the window behind it has to be a position
of 64 bits. -/
theorem segments_of_fitting_body
    {bounds : Window.Bounds} (positive : 1 ≤ bounds.maxLength.toNat)
    (header : FrontMatter) {raw : String}
    (plain : ∀ line ∈ lines (normalize raw).toList, stampOf? line = none)
    (fits : (normalize raw).length ≤ bounds.maxLength.toNat) :
    let body := normalize raw
    Document.segments? bounds ⟨header, body⟩ =
        some (if body = "\n" then []
          else [⟨header.videoId, header.module, none, none, trimmed body⟩]) ↔
      (bounds.softStart ≤ body.length - 1 →
        body.length - 1 + bounds.maxLength.toNat < UInt64.size) := by
  intro body
  have sizeEq : bounds.size = bounds.maxLength.toNat := Nat.max_eq_left positive
  have strategy : Strategy.detect body = .fixedWindow :=
    detect_eq_fixedWindow_iff.2 (stampOf?_eq_none_iff_lines.2 plain)
  rw [← sizeEq] at fits
  have areSpans := windowSpans_of_fits fits
  obtain ⟨text, whole⟩ := exists_toList_normalize raw
  have lengthEq : body.length = text.length + 1 := by
    rw [← String.length_toList, whole, List.length_append, List.length_singleton]
  have room := Window.inRange_iff_of_fits positive (lengthEq ▸ fits)
  rw [lengthEq, Nat.add_sub_cancel, ← room, ← whole, Document.segments?, strategy]
  by_cases inRange : Window.inRange bounds body.toList = true
  · rw [spans?_fixedWindow_eq_some_iff.2 inRange, areSpans, Option.map_some]
    refine iff_of_true ?_ inRange
    split
    · rfl
    · rfl
  · rw [spans?_fixedWindow_eq_none_iff.2 inRange, Option.map_none]
    exact iff_of_false (Option.some_ne_none _).symm inRange

theorem segments_of_fitting_body_sample :
    let header : FrontMatter := ⟨"Types", 6, "", "types"⟩
    Document.segments? ⟨5, 2⟩ ⟨header, normalize "a\nb "⟩ =
      some [⟨"types", 6, none, none, "a\nb"⟩] := by
  intro header
  have body : normalize "a\nb " = "a\nb\n" := by decide +kernel
  have plain : ∀ line ∈ lines (normalize "a\nb ").toList, stampOf? line = none := by
    decide +kernel
  have fits : (normalize "a\nb ").length ≤ 5 := by decide +kernel
  have segments := (@segments_of_fitting_body ⟨5, 2⟩ (by decide) header _ plain fits).2
    (by decide +kernel)
  rw [segments, body]
  decide +kernel

end LectureQuiz
