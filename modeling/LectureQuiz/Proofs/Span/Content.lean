import LectureQuiz.Proofs.Text.Words
import LectureQuiz.Proofs.Timestamp
import LectureQuiz.Proofs.Window.Range

/-!
# Segments keep the text and drop the stamps

A body that is cut into windows has no stamp at all, and cutting it makes none. A body
with stamps loses the lines that have one, and what it is cut into are trimmed runs of
the other lines. Either way the segments have every character of the lines without a
stamp that is not blank, and no stamp.
-/

namespace LectureQuiz

open LectureQuiz.Text

variable {text : List Char} {body : String}

namespace Timestamp

variable {stamp : Timestamp}

theorem written_ne_nil (proper : stamp.IsProper) : stamp.written ≠ [] := by
  obtain ⟨hours, minutes, seconds⟩ := stamp
  cases hours with
  | none => exact List.append_ne_nil_of_right_ne_nil _ (List.cons_ne_nil _ _)
  | some hours => exact List.append_ne_nil_of_right_ne_nil _ (List.cons_ne_nil _ _)

theorem not_mem_written
    (proper : stamp.IsProper) {character : Char}
    (notDigit : isDecimalDigit character = false) (notColon : character ≠ ':') :
    character ∉ stamp.written := by
  intro member
  rcases decimal_or_colon_of_mem_written proper member with isDigit | isColon
  · exact absurd (isDigit.symm.trans notDigit) (by decide)
  · exact notColon isColon

theorem feed_not_mem_written (proper : stamp.IsProper) : '\n' ∉ stamp.written :=
  not_mem_written proper (by decide) (by decide)

theorem isInfix_written_iff_lines (proper : stamp.IsProper) (text : List Char) :
    stamp.written <:+: text ↔ ∃ line ∈ lines text, stamp.written <:+: line :=
  isInfix_iff_lines (written_ne_nil proper) (feed_not_mem_written proper)
    (not_mem_written proper (by decide) (by decide)) text

end Timestamp

/-- A text has a stamp exactly if one of its lines has. -/
theorem stampOf?_eq_none_iff_lines :
    stampOf? text = none ↔ ∀ line ∈ lines text, stampOf? line = none := by
  simp only [stampOf?_eq_none_iff]
  constructor
  · intro plain line member stamp proper inLine
    exact plain stamp proper
      ((Timestamp.isInfix_written_iff_lines proper text).2 ⟨line, member, inLine⟩)
  · intro plain stamp proper inside
    obtain ⟨line, member, inLine⟩ :=
      (Timestamp.isInfix_written_iff_lines proper text).1 inside
    exact plain line member stamp proper inLine

theorem stampOf?_joinLines
    {parts : List (List Char)} (plain : ∀ part ∈ parts, stampOf? part = none) :
    stampOf? (joinLines parts) = none := by
  rw [stampOf?_eq_none_iff]
  intro stamp proper inside
  obtain ⟨part, member, inPart⟩ := (isInfix_joinLines_iff (Timestamp.written_ne_nil proper)
    (Timestamp.feed_not_mem_written proper) parts).1 inside
  exact stampOf?_eq_none_iff.1 (plain part member) stamp proper inPart

theorem stampOf?_trim (plain : stampOf? text = none) : stampOf? (trim text) = none :=
  stampOf?_of_isInfix (isInfix_trim text) plain

theorem detect_eq_fixedWindow_iff :
    Strategy.detect body = .fixedWindow ↔ stampOf? body.toList = none := by
  have noLine : (lines body.toList).any (stampOf? · |>.isSome) = false ↔
      ∀ line ∈ lines body.toList, stampOf? line = none := by
    rw [List.any_eq_false]
    simp only [Bool.not_eq_true, Option.isSome_eq_false_iff, Option.isNone_iff_eq_none]
  rw [stampOf?_eq_none_iff_lines, ← noLine, Strategy.detect]
  split
  · rename_i stamped
    rw [stamped]
    exact ⟨nofun, nofun⟩
  · rename_i plain
    exact ⟨fun _ => Bool.eq_false_iff.2 plain, fun _ => rfl⟩

namespace Section

theorem flatMap_lines_gather (all : List (List Char)) :
    (gather all).1 ++ (gather all).2.flatMap Section.lines =
      all.filter (stampOf? · = none) := by
  induction all with
  | nil => rfl
  | cons line rest inductionHypothesis =>
      rw [gather]
      cases stamp : stampOf? line with
      | none =>
          rw [List.filter_cons_of_pos (by simpa using stamp), ← inductionHypothesis]
          rfl
      | some time =>
          rw [List.filter_cons_of_neg (by simp [stamp]), ← inductionHypothesis]
          rfl

/-- The sections of a body have the lines without a stamp. -/
theorem flatMap_lines_ofLines (all : List (List Char)) :
    (ofLines all).flatMap Section.lines = all.filter (stampOf? · = none) := by
  rw [← flatMap_lines_gather, ofLines]
  dsimp only
  split
  · rename_i noLeading
    rw [noLeading, List.nil_append]
  · rw [List.flatMap_cons]

theorem filter_spans (sections : List Section) :
    ((spans sections).flatMap (·.text.toList)).filter (!isBlank ·) =
      (sections.flatMap Section.lines).flatten.filter (!isBlank ·) := by
  induction sections with
  | nil => rfl
  | cons part rest inductionHypothesis =>
      have kept : part.text.filter (!isBlank ·) =
          part.lines.flatten.filter (!isBlank ·) := by
        rw [text, Window.filter_trim, filter_joinLines]
      rw [List.flatMap_cons, List.flatten_append, List.filter_append, ← kept,
        ← inductionHypothesis, spans]
      split
      · rename_i noText
        rw [noText, List.filter_nil, List.nil_append]
      · rw [List.flatMap_cons, List.filter_append, String.toList_ofList]

theorem exists_of_mem_spans
    {sections : List Section} {span : Span} (member : span ∈ spans sections) :
    ∃ part ∈ sections, part.text ≠ [] ∧ span.text = String.ofList part.text := by
  induction sections with
  | nil => exact absurd member List.not_mem_nil
  | cons part rest inductionHypothesis =>
      rw [spans] at member
      split at member
      · obtain ⟨other, inRest, hasText⟩ := inductionHypothesis member
        exact ⟨other, List.mem_cons_of_mem _ inRest, hasText⟩
      · rename_i notEmpty
        rcases List.mem_cons.1 member with rfl | later
        · exact ⟨part, List.mem_cons_self, notEmpty, rfl⟩
        · obtain ⟨other, inRest, hasText⟩ := inductionHypothesis later
          exact ⟨other, List.mem_cons_of_mem _ inRest, hasText⟩

end Section

/-- A text that a segment can have: trimmed, not empty and without a stamp. -/
structure IsStampless (text : List Char) : Prop where
  trimmed : trim text = text
  notEmpty : text ≠ []
  plain : stampOf? text = none

theorem isStampless_trim (plain : stampOf? text = none) (notEmpty : trim text ≠ []) :
    IsStampless (trim text) :=
  ⟨strip_idempotent text, notEmpty, stampOf?_trim plain⟩

theorem isStampless_of_mem_stampedSpans
    {span : Span} (member : span ∈ stampedSpans body) : IsStampless span.text.toList := by
  obtain ⟨part, inSections, notEmpty, sameText⟩ := Section.exists_of_mem_spans member
  have plain : ∀ line ∈ part.lines, stampOf? line = none := by
    intro line inPart
    have inLines := List.mem_flatMap_of_mem inSections inPart
    rw [Section.flatMap_lines_ofLines] at inLines
    simpa using (List.mem_filter.1 inLines).2
  rw [sameText, String.toList_ofList]
  exact isStampless_trim (stampOf?_joinLines plain) notEmpty

theorem isStampless_of_mem_windowSpans
    {bounds : Window.Bounds} (plain : stampOf? body.toList = none)
    {span : Span} (member : span ∈ windowSpans bounds body) :
    IsStampless span.text.toList := by
  obtain ⟨chunk, inChunks, rfl⟩ := List.mem_map.1 member
  obtain ⟨inMap, notEmpty⟩ := List.mem_filter.1 inChunks
  obtain ⟨window, inWindows, rfl⟩ := List.mem_map.1 inMap
  have inBody : window <:+: body.toList := by
    have inFlatten := List.infix_of_mem_flatten inWindows
    rwa [Window.flatten_split] at inFlatten
  rw [String.toList_ofList]
  exact isStampless_trim (stampOf?_of_isInfix inBody plain) (by simpa using notEmpty)

theorem filter_stampedSpans (body : String) :
    ((stampedSpans body).flatMap (·.text.toList)).filter (!isBlank ·) =
      ((lines body.toList).filter (stampOf? · = none)).flatten.filter (!isBlank ·) := by
  rw [stampedSpans, Section.filter_spans, Section.flatMap_lines_ofLines]

theorem filter_windowSpans
    (bounds : Window.Bounds) (plain : stampOf? body.toList = none) :
    ((windowSpans bounds body).flatMap (·.text.toList)).filter (!isBlank ·) =
      ((lines body.toList).filter (stampOf? · = none)).flatten.filter (!isBlank ·) := by
  have allPlain : (lines body.toList).filter (stampOf? · = none) = lines body.toList := by
    rw [List.filter_eq_self]
    simpa using stampOf?_eq_none_iff_lines.1 plain
  have texts : (windowSpans bounds body).flatMap (·.text.toList) =
      (Window.chunks bounds body.toList).flatten := by
    rw [windowSpans, List.flatMap_map]
    simp only [String.toList_ofList]
    exact List.flatMap_id'
  rw [allPlain, filter_flatten_lines, texts, Window.chunks, Window.filter_flatten_trim,
    Window.flatten_split]

theorem exists_spans
    {bounds : Window.Bounds}
    (fits : Strategy.detect body = .fixedWindow →
      Window.inRange bounds body.toList = true) :
    ∃ spans, spans? bounds (Strategy.detect body) body = some spans ∧
      (∀ span ∈ spans, IsStampless span.text.toList) ∧
      (spans.flatMap (·.text.toList)).filter (!isBlank ·) =
        ((lines body.toList).filter (stampOf? · = none)).flatten.filter (!isBlank ·) := by
  cases strategy : Strategy.detect body with
  | timestamped =>
      exact ⟨stampedSpans body, rfl, fun span member => isStampless_of_mem_stampedSpans member,
        filter_stampedSpans body⟩
  | fixedWindow =>
      have plain := detect_eq_fixedWindow_iff.1 strategy
      exact ⟨windowSpans bounds body, spans?_fixedWindow_eq_some_iff.2 (fits strategy),
        fun span member => isStampless_of_mem_windowSpans plain member,
        filter_windowSpans bounds plain⟩

/-- A document is cut into segments as long as the ends of the windows that it is cut into,
if it has no stamps, are positions of 64 bits. The segments have the id and the module of
the document and trimmed texts that are not empty. No stamp is written in any line of a
segment, and together the segments have exactly the characters that are not blank of the
lines of the body that have no stamp. -/
theorem segments_of_stampless_lines
    {bounds : Window.Bounds} (accepted : checkBounds bounds = .ok ()) (document : Document)
    (fits : Strategy.detect document.body = .fixedWindow →
      ∀ before window after,
        Window.split bounds document.body.toList = before ++ window :: after →
          before.flatten.length + bounds.maxLength.toNat < UInt64.size) :
    ∃ segments, document.segments? bounds = some segments ∧
      (∀ segment ∈ segments,
        segment.videoId = document.header.videoId ∧
          segment.module = document.header.module ∧
          segment.text ≠ "" ∧ trimmed segment.text = segment.text ∧
          (∀ line ∈ lines segment.text.toList, ∀ stamp : Timestamp,
            stamp.IsProper → ¬stamp.written <:+: line) ∧
          Strategy.detect segment.text = .fixedWindow) ∧
      (segments.flatMap (·.text.toList)).filter (!isBlank ·) =
        ((lines document.body.toList).filter (stampOf? · = none)).flatten.filter
          (!isBlank ·) := by
  have size : bounds.size = bounds.maxLength.toNat :=
    Nat.max_eq_left (checkBounds_eq_ok_iff.1 accepted)
  rw [← size] at fits
  obtain ⟨spans, areSpans, stampless, kept⟩ :=
    exists_spans fun strategy => Window.inRange_iff.2 (fits strategy)
  refine ⟨spans.map (Segment.ofSpan document.header), ?_, ?_, ?_⟩
  · rw [Document.segments?, areSpans, Option.map_some]
  · intro segment member
    obtain ⟨span, inSpans, rfl⟩ := List.mem_map.1 member
    obtain ⟨isTrimmed, notEmpty, plain⟩ := stampless span inSpans
    refine ⟨rfl, rfl, ?_, ?_, ?_, detect_eq_fixedWindow_iff.2 plain⟩
    · exact fun isEmpty => notEmpty (String.toList_eq_nil_iff.2 isEmpty)
    · rw [Segment.ofSpan, trimmed, isTrimmed, String.ofList_toList]
    · exact fun line inText =>
        stampOf?_eq_none_iff.1 (stampOf?_eq_none_iff_lines.1 plain line inText)
  · rw [List.flatMap_map]
    exact kept

theorem segments_of_stampless_lines_sample :
    let document : Document := ⟨⟨"Types", 6, "", "types"⟩, "12:3\n4\n"⟩
    Strategy.detect document.body = .fixedWindow ∧
      ∃ segments, document.segments? ⟨4, 2⟩ = some segments ∧
        (segments.flatMap (·.text.toList)).filter (!isBlank ·) = "12:34".toList := by
  intro document
  have accepted : checkBounds ⟨4, 2⟩ = .ok () := by decide
  have inRange : Window.inRange ⟨4, 2⟩ document.body.toList = true := by decide +kernel
  obtain ⟨segments, areSegments, _, kept⟩ :=
    segments_of_stampless_lines accepted document fun _ => Window.inRange_iff.1 inRange
  refine ⟨by decide +kernel, segments, areSegments, kept.trans ?_⟩
  decide +kernel

end LectureQuiz
