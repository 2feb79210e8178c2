import LectureQuiz.Proofs.Text.BlankEnds
import LectureQuiz.Proofs.Text.Words

/-!
# The normal form of a text

A text consists of lines in one way only, when line feeds, carriage returns and pairs of
both end lines. Its normal form are these lines without the blanks at their ends and
without the empty lines around them. So the normal form depends on the lines and not on how
they are ended, it keeps all characters but blanks and the indentation of the text, and it
is its own normal form.
-/

namespace LectureQuiz.Text

variable {text rest line : List Char} {lines : List (List Char)}

/-- The text consists of the lines. A carriage return ends a line on its own only if no
line feed follows it. -/
inductive IsBrokenInto : List Char → List (List Char) → Prop
  | last {line : List Char}
      (plain : ∀ character ∈ line, isBreak character = false) : IsBrokenInto line [line]
  | feed {line rest : List Char} {lines : List (List Char)}
      (plain : ∀ character ∈ line, isBreak character = false)
      (others : IsBrokenInto rest lines) :
      IsBrokenInto (line ++ '\n' :: rest) (line :: lines)
  | pair {line rest : List Char} {lines : List (List Char)}
      (plain : ∀ character ∈ line, isBreak character = false)
      (others : IsBrokenInto rest lines) :
      IsBrokenInto (line ++ '\r' :: '\n' :: rest) (line :: lines)
  | carriageReturn {line rest : List Char} {lines : List (List Char)}
      (plain : ∀ character ∈ line, isBreak character = false)
      (alone : rest.head? ≠ some '\n') (others : IsBrokenInto rest lines) :
      IsBrokenInto (line ++ '\r' :: rest) (line :: lines)

theorem unifyBreaks_return (alone : rest.head? ≠ some '\n') :
    unifyBreaks ('\r' :: rest) = '\n' :: unifyBreaks rest := by
  rw [unifyBreaks]
  rintro after rfl
  exact alone rfl

theorem unifyBreaks_cons
    {character : Char} (notReturn : character ≠ '\r') (rest : List Char) :
    unifyBreaks (character :: rest) = character :: unifyBreaks rest := by
  rw [unifyBreaks]
  · exact fun _ isReturn => absurd isReturn notReturn
  · exact notReturn

theorem unifyBreaks_plain_append
    (plain : ∀ character ∈ line, isBreak character = false) (rest : List Char) :
    unifyBreaks (line ++ rest) = line ++ unifyBreaks rest := by
  have noReturn : line.getLast? ≠ some '\r' := by
    intro ends
    exact absurd (plain _ (List.mem_of_getLast? ends)) (by decide)
  rw [unifyBreaks_append (fun ends => absurd ends noReturn), unifyBreaks_of_plain plain]

/-- A line in front of a line feed is the first piece. -/
theorem pieces_plain_append_feed
    (plain : ∀ character ∈ line, isBreak character = false) (rest : List Char) :
    pieces '\n' (line ++ '\n' :: rest) = line :: pieces '\n' rest := by
  rw [pieces_append_separator, pieces_of_not_mem (feed_not_mem_of_plain plain),
    List.singleton_append]

namespace IsBrokenInto

theorem eq_pieces (broken : IsBrokenInto text lines) :
    lines = pieces '\n' (unifyBreaks text) := by
  induction broken with
  | last plain =>
      rw [unifyBreaks_of_plain plain, pieces_of_not_mem (feed_not_mem_of_plain plain)]
  | feed plain _ inductionHypothesis =>
      rw [unifyBreaks_plain_append plain, unifyBreaks_cons (by decide),
        pieces_plain_append_feed plain, ← inductionHypothesis]
  | pair plain _ inductionHypothesis =>
      rw [unifyBreaks_plain_append plain, unifyBreaks, pieces_plain_append_feed plain,
        ← inductionHypothesis]
  | carriageReturn plain alone _ inductionHypothesis =>
      rw [unifyBreaks_plain_append plain, unifyBreaks_return alone,
        pieces_plain_append_feed plain, ← inductionHypothesis]

theorem exists_cons
    {character : Char} (plain : isBreak character = false) (broken : IsBrokenInto rest lines) :
    ∃ more, IsBrokenInto (character :: rest) more := by
  cases broken with
  | last plainLine => exact ⟨_, last (List.forall_mem_cons.2 ⟨plain, plainLine⟩)⟩
  | feed plainLine others => exact ⟨_, feed (List.forall_mem_cons.2 ⟨plain, plainLine⟩) others⟩
  | pair plainLine others => exact ⟨_, pair (List.forall_mem_cons.2 ⟨plain, plainLine⟩) others⟩
  | carriageReturn plainLine alone others =>
      exact ⟨_, carriageReturn (List.forall_mem_cons.2 ⟨plain, plainLine⟩) alone others⟩

theorem exists_lines (text : List Char) : ∃ lines, IsBrokenInto text lines := by
  have noCharacter : ∀ character ∈ [], isBreak character = false := List.forall_mem_nil _
  fun_induction unifyBreaks text with
  | case1 => exact ⟨_, last noCharacter⟩
  | case2 rest inductionHypothesis =>
      obtain ⟨lines, broken⟩ := inductionHypothesis
      exact ⟨_, pair noCharacter broken⟩
  | case3 rest notPair inductionHypothesis =>
      obtain ⟨lines, broken⟩ := inductionHypothesis
      have alone : rest.head? ≠ some '\n' := by
        intro isHead
        obtain ⟨after, whole⟩ := List.head?_eq_some_iff.1 isHead
        exact notPair after whole
      exact ⟨_, carriageReturn noCharacter alone broken⟩
  | case4 character rest _ notReturn inductionHypothesis =>
      obtain ⟨lines, broken⟩ := inductionHypothesis
      by_cases isFeed : character = '\n'
      · rw [isFeed]
        exact ⟨_, feed noCharacter broken⟩
      · exact broken.exists_cons (by simpa [isBreak, isFeed] using notReturn)

end IsBrokenInto

/-- Every text consists of lines in one way. -/
theorem isBrokenInto_iff :
    IsBrokenInto text lines ↔ lines = pieces '\n' (unifyBreaks text) := by
  constructor
  · exact IsBrokenInto.eq_pieces
  · intro same
    obtain ⟨found, broken⟩ := IsBrokenInto.exists_lines text
    rw [same, ← broken.eq_pieces]
    exact broken

theorem strip_joinLines (single : ∀ line ∈ lines, '\n' ∉ line) :
    strip (· == '\n') (joinLines lines) = joinLines (strip (· == []) lines) := by
  obtain ⟨before, after, whole, emptyBefore, emptyAfter⟩ :=
    strip_decomposition (· == []) lines
  simp only [beq_iff_eq] at emptyBefore emptyAfter
  by_cases nothing : strip (· == []) lines = []
  · have empty : ∀ line ∈ lines, line = [] := by
      simpa using strip_eq_nil_iff.1 nothing
    have feeds : strip (· == '\n') (joinLines lines) = [] := by
      rw [strip_eq_nil_iff]
      intro character member
      rw [beq_iff_eq]
      exact eq_feed_of_mem_joinLines empty member
    rw [feeds, nothing]
    rfl
  · have keptSingle : ∀ line ∈ strip (· == []) lines, '\n' ∉ line := by
      intro line member
      apply single
      rw [whole]
      exact List.mem_append_right _ (List.mem_append_left _ member)
    have starts : ∃ first later, strip (· == []) lines = first :: later ∧ first ≠ [] := by
      obtain ⟨first, later, split⟩ := List.exists_cons_of_ne_nil nothing
      have notEmpty := @head?_strip _ (· == []) lines first (by rw [split]; rfl)
      exact ⟨first, later, split, by simpa using notEmpty⟩
    have ends : ∃ earlier last, strip (· == []) lines = earlier ++ [last] ∧ last ≠ [] := by
      rcases List.eq_nil_or_concat' (strip (· == []) lines) with none | ⟨earlier, last, split⟩
      · exact absurd none nothing
      · have notEmpty := @getLast?_strip _ (· == []) lines last
          (by rw [split, List.getLast?_concat])
        exact ⟨earlier, last, split, by simpa using notEmpty⟩
    conv_lhs => rw [whole]
    rw [strip_joinLines_of_empty nothing emptyBefore emptyAfter,
      joinLines, strip_join_of_ends keptSingle starts ends]

/-- The lines of the normal form: no blank ends, and no empty lines around them. -/
def keptLines (lines : List (List Char)) : List (List Char) :=
  strip (· == []) (lines.map (dropTrailing isBlank))

theorem normalizeChars_of_isBrokenInto (broken : IsBrokenInto text lines) :
    normalizeChars text = joinLines (keptLines lines) ++ ['\n'] := by
  have same : trimmedLines (unifyBreaks text) = lines.map (dropTrailing isBlank) := by
    rw [trimmedLines, ← broken.eq_pieces]
  rw [normalizeChars, keptLines, ← same,
    ← strip_joinLines (fun _ => feed_not_mem_trimmedLines)]
  rfl

/-! ## What a normal form keeps -/

theorem isPrefix_joinLines (first : List Char) (later : List (List Char)) :
    first <+: joinLines (first :: later) := by
  by_cases isLast : later = []
  · simp [isLast, joinLines, join]
  · rw [joinLines, join_cons first isLast]
    exact List.prefix_append first _

/-- A line that is not blank keeps its indentation. -/
theorem exists_dropTrailing_eq
    (spoken : ∃ character ∈ line, isBlank character = false) :
    ∃ first rest, isBlank first = false ∧
      dropTrailing isBlank line = line.takeWhile isBlank ++ first :: rest := by
  obtain ⟨first, rest, split⟩ : ∃ first rest, line.dropWhile isBlank = first :: rest := by
    apply List.exists_cons_of_ne_nil
    rw [Ne, List.dropWhile_eq_nil_iff]
    intro all
    obtain ⟨character, member, notBlank⟩ := spoken
    simp [all character member] at notBlank
  have firstKept := List.head?_dropWhile_not isBlank line
  rw [split, List.head?_cons] at firstKept
  refine ⟨first, dropTrailing isBlank rest, firstKept, ?_⟩
  conv_lhs => rw [← List.takeWhile_append_dropWhile (p := isBlank) (l := line), split]
  rw [dropTrailing_append_cons _ firstKept]

/-- The first line that is not blank comes first in the normal form, with its
indentation. -/
theorem takeWhile_isBlank_normalizeChars
    {blankLines after : List (List Char)}
    (broken : IsBrokenInto text (blankLines ++ line :: after))
    (blank : ∀ line ∈ blankLines, ∀ character ∈ line, isBlank character = true)
    (spoken : ∃ character ∈ line, isBlank character = false) :
    (normalizeChars text).takeWhile isBlank = line.takeWhile isBlank := by
  obtain ⟨first, rest, firstKept, trimmed⟩ := exists_dropTrailing_eq spoken
  have emptyLines : ∀ line ∈ blankLines.map (dropTrailing isBlank), (line == []) = true := by
    intro line member
    obtain ⟨given, inBlankLines, rfl⟩ := List.mem_map.1 member
    rw [beq_iff_eq, dropTrailing_eq_nil_iff]
    exact blank given inBlankLines
  have notEmpty : (dropTrailing isBlank line == []) = false := by
    simp [trimmed]
  rw [normalizeChars_of_isBrokenInto broken, keptLines, List.map_append, List.map_cons,
    strip_append_cons emptyLines notEmpty]
  obtain ⟨others, whole⟩ := isPrefix_joinLines (dropTrailing isBlank line)
    (dropTrailing (· == []) (after.map (dropTrailing isBlank)))
  rw [← whole, trimmed, List.append_assoc, List.append_assoc,
    List.takeWhile_append_of_pos (fun _ member => List.mem_takeWhile_imp member),
    List.cons_append, List.takeWhile_cons_of_neg (by simp [firstKept]), List.append_nil]

theorem filter_unifyBreaks (text : List Char) :
    (unifyBreaks text).filter (!isBlank ·) = text.filter (!isBlank ·) := by
  have feed : isBlank '\n' = true := by decide
  have carriageReturn : isBlank '\r' = true := by decide
  fun_induction unifyBreaks text with
  | case1 => rfl
  | case2 rest inductionHypothesis => simp [feed, carriageReturn, inductionHypothesis]
  | case3 rest _ inductionHypothesis => simp [feed, carriageReturn, inductionHypothesis]
  | case4 character rest _ _ inductionHypothesis =>
      rw [List.filter_cons, List.filter_cons, inductionHypothesis]

theorem filter_joinLines_trimmedLines (text : List Char) :
    (joinLines (trimmedLines text)).filter (!isBlank ·) = text.filter (!isBlank ·) := by
  conv_rhs => rw [← join_pieces '\n' text, ← joinLines]
  rw [filter_joinLines, filter_joinLines, trimmedLines, List.filter_flatten,
    List.filter_flatten, List.map_map]
  congr 1
  exact List.map_congr_left fun line _ => filter_dropTrailing line

/-- Normalizing takes blanks only. -/
theorem filter_normalizeChars (text : List Char) :
    (normalizeChars text).filter (!isBlank ·) = text.filter (!isBlank ·) := by
  have feeds : ∀ character : Char, (character == '\n') = true → isBlank character = true := by
    intro character isFeed
    rw [beq_iff_eq] at isFeed
    rw [isFeed]
    decide
  have ending : ['\n'].filter (!isBlank ·) = [] := by decide
  rw [normalizeChars, List.filter_append, ending, List.append_nil, filter_strip feeds,
    cleanLines, ← trimmedLines, filter_joinLines_trimmedLines, filter_unifyBreaks]

/-- The text has no carriage return, no blank end of a line, no empty line at its start
unless it is nothing else, and one line feed at its end. -/
structure IsTidy (text : List Char) : Prop where
  noReturn : '\r' ∉ text
  trimmed : ∀ line ∈ pieces '\n' text, ∀ last ∈ line.getLast?, isBlank last = false
  starts : text.head? = some '\n' → text = ['\n']
  ends : text.getLast? = some '\n'
  once : ¬['\n', '\n'] <:+ text

theorem isTidy_normalizeChars (text : List Char) : IsTidy (normalizeChars text) := by
  have normal := isNormal_strip text
  have headOf := @head?_strip _ (· == '\n') (joinLines (cleanLines text)) '\n'
  have lastOf := @getLast?_strip _ (· == '\n') (joinLines (cleanLines text)) '\n'
  rw [normalizeChars]
  generalize strip (· == '\n') (joinLines (cleanLines text)) = body at *
  refine ⟨?_, ?_, ?_, List.getLast?_concat, ?_⟩
  · simpa using normal.noReturn
  · intro line member last isLast
    rw [pieces_append_separator, List.mem_append] at member
    rcases member with inBody | atEnd
    · have clean := normal.clean line inBody
      rw [dropTrailing_eq_rdropWhile, List.rdropWhile_eq_self_iff] at clean
      have notEmpty : line ≠ [] := by
        rintro rfl
        simp at isLast
      rw [Option.mem_def, List.getLast?_eq_some_getLast notEmpty, Option.some.injEq] at isLast
      rw [← isLast]
      exact Bool.eq_false_iff.2 (clean notEmpty)
    · rw [pieces, List.mem_singleton] at atEnd
      simp [atEnd] at isLast
  · intro isHead
    cases body with
    | nil => rfl
    | cons first rest =>
        rw [List.cons_append, List.head?_cons] at isHead
        exact absurd (headOf isHead) (by decide)
  · rintro ⟨front, whole⟩
    have isBody : front ++ ['\n'] = body := by
      rw [← List.append_cancel_right_eq _ ['\n'], List.append_assoc]
      exact whole
    rw [← isBody, List.getLast?_concat] at lastOf
    exact absurd (lastOf rfl) (by decide)

theorem normalizeChars_normalizeChars (text : List Char) :
    normalizeChars (normalizeChars text) = normalizeChars text := by
  have again := @normalizeChars_of_isNormal [] ['\n'] _ (isNormal_strip text) nofun
    (by simp)
  rwa [List.nil_append, ← normalizeChars] at again

/-- The normal form is a line feed and nothing else exactly for blank texts. -/
theorem normalizeChars_eq_feed_iff :
    normalizeChars text = ['\n'] ↔ ∀ character ∈ text, isBlank character = true := by
  constructor
  · intro isFeed
    have nothing := filter_normalizeChars text
    rw [isFeed] at nothing
    simpa using List.filter_eq_nil_iff.1 nothing.symm
  · exact normalizeChars_of_blanks

/-- A carriage return for a line feed. -/
def returnOf (character : Char) : Char :=
  if character = '\n' then '\r' else character

theorem head?_map_returnOf (text : List Char) : (text.map returnOf).head? ≠ some '\n' := by
  cases text with
  | nil => exact nofun
  | cons first rest =>
      rw [List.map_cons, List.head?_cons, Ne, Option.some.injEq, returnOf]
      split
      · decide
      · assumption

theorem unifyBreaks_map_returnOf (noReturn : '\r' ∉ text) :
    unifyBreaks (text.map returnOf) = text := by
  induction text with
  | nil => rfl
  | cons first rest inductionHypothesis =>
      rw [List.mem_cons, not_or] at noReturn
      rw [List.map_cons, returnOf]
      split
      · rename_i isFeed
        rw [unifyBreaks_return (head?_map_returnOf rest), inductionHypothesis noReturn.2,
          isFeed]
      · rw [unifyBreaks_cons (Ne.symm noReturn.1), inductionHypothesis noReturn.2]

theorem unifyBreaks_withReturns (noReturn : '\r' ∉ text) :
    unifyBreaks (withReturns text) = text := by
  induction text with
  | nil => rfl
  | cons first rest inductionHypothesis =>
      rw [List.mem_cons, not_or] at noReturn
      rw [withReturns, List.flatMap_cons, ← withReturns]
      split
      · rename_i isFeed
        rw [List.cons_append, List.singleton_append, unifyBreaks,
          inductionHypothesis noReturn.2, isFeed]
      · rw [List.singleton_append, unifyBreaks_cons (Ne.symm noReturn.1),
          inductionHypothesis noReturn.2]

theorem normalizeChars_of_unifyBreaks
    (noReturn : '\r' ∉ text) {other : List Char} (same : unifyBreaks other = text) :
    normalizeChars other = normalizeChars text := by
  have unchanged := unifyBreaks_of_not_mem noReturn
  rw [normalizeChars, normalizeChars, cleanLines, cleanLines, same, unchanged]

/-- A text consists of lines in one way, however they are ended. Its normal form are these
lines without their blank ends and without the empty lines around them, joined by line
feeds and with one behind them. It is tidy and keeps the indentation of the first line that
is not blank and all characters but blanks, it is its own normal form, and other breaks for
the line feeds of a text do not change it. -/
theorem normalize_of_lines (raw : String) :
    (∃ lines, IsBrokenInto raw.toList lines ∧
      (∀ other, IsBrokenInto raw.toList other → other = lines) ∧
      normalize raw = String.ofList (joinLines (keptLines lines) ++ ['\n']) ∧
      ∀ blankLines line after, lines = blankLines ++ line :: after →
        (∀ blankLine ∈ blankLines, ∀ character ∈ blankLine, isBlank character = true) →
        (∃ character ∈ line, isBlank character = false) →
        (normalize raw).toList.takeWhile isBlank = line.takeWhile isBlank) ∧
    IsTidy (normalize raw).toList ∧
    (normalize raw).toList.filter (!isBlank ·) = raw.toList.filter (!isBlank ·) ∧
    normalize (normalize raw) = normalize raw ∧
    ('\r' ∉ raw.toList →
      normalize (String.ofList (withReturns raw.toList)) = normalize raw ∧
        normalize (String.ofList (raw.toList.map returnOf)) = normalize raw) := by
  have broken : IsBrokenInto raw.toList (pieces '\n' (unifyBreaks raw.toList)) :=
    isBrokenInto_iff.2 rfl
  simp only [normalize, String.toList_ofList]
  refine ⟨⟨_, broken, fun other => isBrokenInto_iff.1, ?_, ?_⟩, isTidy_normalizeChars _,
    filter_normalizeChars _, ?_, ?_⟩
  · rw [normalizeChars_of_isBrokenInto broken]
  · intro blankLines line after whole blank spoken
    rw [whole] at broken
    exact takeWhile_isBlank_normalizeChars broken blank spoken
  · rw [normalizeChars_normalizeChars]
  · intro noReturn
    constructor
    · rw [normalizeChars_of_unifyBreaks noReturn (unifyBreaks_withReturns noReturn)]
    · rw [normalizeChars_of_unifyBreaks noReturn (unifyBreaks_map_returnOf noReturn)]

theorem normalize_of_lines_sample :
    '\r' ∉ " \n  one \n\ntwo".toList ∧
      normalize (String.ofList (withReturns " \n  one \n\ntwo".toList)) =
        "  one\n\ntwo\n" ∧
      (normalize " \n  one \n\ntwo").toList.takeWhile isBlank = [' ', ' '] := by
  have noReturn : '\r' ∉ " \n  one \n\ntwo".toList := by decide +kernel
  have normal : normalize " \n  one \n\ntwo" = "  one\n\ntwo\n" := by decide +kernel
  obtain ⟨⟨lines, broken, _, _, indented⟩, _, _, _, sameBreaks⟩ :=
    normalize_of_lines " \n  one \n\ntwo"
  have areLines : lines = [[' ']] ++ "  one ".toList :: [[], "two".toList] := by
    rw [broken.eq_pieces]
    decide +kernel
  have blank : ∀ line ∈ [[' ']], ∀ character ∈ line, isBlank character = true :=
    List.forall_mem_singleton.2 (List.forall_mem_singleton.2 (by decide))
  refine ⟨noReturn, ?_, ?_⟩
  · rw [(sameBreaks noReturn).1, normal]
  · rw [indented _ _ _ areLines blank ⟨'o', by decide +kernel, by decide⟩]
    decide +kernel

end LectureQuiz.Text
