import LectureQuiz.Proofs.Text.Breaks

/-!
# Blank ends of a text

Blanks behind a text, and blank lines in front of it, do not change what it is
normalized to. So only the breaks between the first and the last character that is not
blank count: writing the pairs of carriage return and line feed as line feeds first
changes the normal form exactly if two returns stand in front of a line feed there.
-/

namespace LectureQuiz.Text

/-- The lines of a text without the blanks at their ends. -/
def trimmedLines (text : List Char) : List (List Char) :=
  (pieces '\n' text).map (dropTrailing isBlank)

theorem trimmedLines_ne_nil (text : List Char) : trimmedLines text ≠ [] := by
  simp [trimmedLines, pieces_ne_nil]

theorem feed_not_mem_trimmedLines
    {text line : List Char} (member : line ∈ trimmedLines text) : '\n' ∉ line := by
  obtain ⟨piece, inPieces, rfl⟩ := List.mem_map.1 member
  exact fun inside => not_mem_of_mem_pieces inPieces (mem_of_mem_dropTrailing inside)

theorem trimmedLines_append_feed (first second : List Char) :
    trimmedLines (first ++ '\n' :: second) =
      trimmedLines first ++ trimmedLines second := by
  rw [trimmedLines, pieces_append_separator, List.map_append]
  rfl

theorem dropTrailing_eq_nil_iff {line : List Char} :
    dropTrailing isBlank line = [] ↔ ∀ character ∈ line, isBlank character = true :=
  List.rdropWhile_eq_nil_iff

theorem eq_nil_of_mem_trimmedLines
    {text line : List Char} (blank : ∀ character ∈ text, isBlank character = true)
    (member : line ∈ trimmedLines text) : line = [] := by
  obtain ⟨piece, inPieces, rfl⟩ := List.mem_map.1 member
  rw [dropTrailing_eq_nil_iff]
  exact fun character inside => blank character (mem_of_mem_pieces inPieces inside)

theorem trimmedLines_append_of_not_mem
    (text : List Char) {blanks : List Char} (single : '\n' ∉ blanks)
    (blank : ∀ character ∈ blanks, isBlank character = true) :
    trimmedLines (text ++ blanks) = trimmedLines text := by
  obtain ⟨earlier, last, goesOn⟩ := @pieces_append_piece '\n' text
  have alone := goesOn [] List.not_mem_nil
  rw [List.append_nil, List.append_nil] at alone
  rw [trimmedLines, trimmedLines, goesOn blanks single, alone, List.map_append,
    List.map_append, List.map_singleton, List.map_singleton,
    dropTrailing_append_of_all last blank]

theorem eq_feed_of_mem_joinLines
    {lines : List (List Char)} (empty : ∀ line ∈ lines, line = []) {character : Char}
    (member : character ∈ joinLines lines) : character = '\n' := by
  rcases eq_or_mem_of_mem_join member with isFeed | ⟨line, inLines, inside⟩
  · exact isFeed
  · rw [empty line inLines] at inside
    exact absurd inside List.not_mem_nil

/-- Empty lines at the ends of a text are stripped off with their line feeds. -/
theorem strip_joinLines_of_empty
    {before lines after : List (List Char)} (notEmpty : lines ≠ [])
    (emptyBefore : ∀ line ∈ before, line = []) (emptyAfter : ∀ line ∈ after, line = []) :
    strip (· == '\n') (joinLines (before ++ (lines ++ after))) =
      strip (· == '\n') (joinLines lines) := by
  obtain ⟨feedsBefore, joinBefore, allBefore⟩ : ∃ feeds,
      joinLines (before ++ (lines ++ after)) = feeds ++ joinLines (lines ++ after) ∧
        ∀ character ∈ feeds, (character == '\n') = true := by
    by_cases nothing : before = []
    · exact ⟨[], by rw [nothing]; rfl, nofun⟩
    · refine ⟨joinLines before ++ ['\n'], ?_, ?_⟩
      · rw [joinLines, join_append nothing (by simp [notEmpty]), List.append_assoc]
        rfl
      · simpa [or_imp] using fun _ => eq_feed_of_mem_joinLines emptyBefore
  obtain ⟨feedsAfter, joinAfter, allAfter⟩ : ∃ feeds,
      joinLines (lines ++ after) = joinLines lines ++ feeds ∧
        ∀ character ∈ feeds, (character == '\n') = true := by
    by_cases nothing : after = []
    · exact ⟨[], by rw [nothing, List.append_nil, List.append_nil], nofun⟩
    · refine ⟨'\n' :: joinLines after, ?_, ?_⟩
      · rw [joinLines, join_append notEmpty nothing]
        rfl
      · simpa [or_imp] using fun _ => eq_feed_of_mem_joinLines emptyAfter
  rw [joinBefore, joinAfter, strip_of_all _ allBefore allAfter]

theorem strip_trimmedLines_append
    (text : List Char) {blanks : List Char}
    (blank : ∀ character ∈ blanks, isBlank character = true) :
    strip (· == '\n') (joinLines (trimmedLines (text ++ blanks))) =
      strip (· == '\n') (joinLines (trimmedLines text)) := by
  by_cases hasFeed : '\n' ∈ blanks
  · obtain ⟨line, rest, rfl, single⟩ := List.eq_append_cons_of_mem hasFeed
    simp only [List.mem_append, List.mem_cons, or_imp, forall_and] at blank
    rw [← List.append_assoc, trimmedLines_append_feed,
      trimmedLines_append_of_not_mem text single blank.1]
    exact @strip_joinLines_of_empty [] (trimmedLines text) (trimmedLines rest)
      (trimmedLines_ne_nil text) nofun fun _ => eq_nil_of_mem_trimmedLines blank.2.2
  · rw [trimmedLines_append_of_not_mem text hasFeed blank]

theorem strip_trimmedLines_prepend
    {blanks : List Char} (blank : ∀ character ∈ blanks, isBlank character = true)
    (text : List Char) :
    strip (· == '\n') (joinLines (trimmedLines (blanks ++ '\n' :: text))) =
      strip (· == '\n') (joinLines (trimmedLines text)) := by
  have stripped := @strip_joinLines_of_empty (trimmedLines blanks) (trimmedLines text) []
    (trimmedLines_ne_nil text) (fun _ => eq_nil_of_mem_trimmedLines blank) nofun
  rw [trimmedLines_append_feed]
  rwa [List.append_nil] at stripped

theorem isBlank_of_mem_unifyBreaks
    {text : List Char} (blank : ∀ character ∈ text, isBlank character = true)
    {character : Char} (member : character ∈ unifyBreaks text) :
    isBlank character = true := by
  rw [unifyBreaks_eq_map] at member
  obtain ⟨given, inFeeds, rfl⟩ := List.mem_map.1 member
  rw [feedOf]
  split
  · rfl
  · exact blank given ((withFeeds_sublist text).subset inFeeds)

theorem unifyBreaks_append
    {first second : List Char}
    (apart : first.getLast? = some '\r' → second.head? ≠ some '\n') :
    unifyBreaks (first ++ second) = unifyBreaks first ++ unifyBreaks second := by
  simp only [unifyBreaks_eq_map, withFeeds_append apart, List.map_append]

/-- Blanks behind a text do not matter. -/
theorem normalizeChars_append_blanks
    {text blanks : List Char}
    (apart : text.getLast? = some '\r' → blanks.head? ≠ some '\n')
    (blank : ∀ character ∈ blanks, isBlank character = true) :
    normalizeChars (text ++ blanks) = normalizeChars text := by
  have stripped := strip_trimmedLines_append (unifyBreaks text)
    fun _ => isBlank_of_mem_unifyBreaks blank
  rw [← unifyBreaks_append apart] at stripped
  exact congrArg (· ++ ['\n']) stripped

theorem normalizeChars_append_feed (text : List Char) :
    normalizeChars (text ++ ['\n']) = normalizeChars text := by
  by_cases ends : text.getLast? = some '\r'
  · obtain ⟨start, rfl⟩ := List.getLast?_eq_some_iff.1 ends
    have pair : unifyBreaks (start ++ ['\r', '\n']) = unifyBreaks start ++ ['\n'] :=
      unifyBreaks_append fun _ => by decide
    have alone : unifyBreaks (start ++ ['\r']) = unifyBreaks start ++ ['\n'] :=
      unifyBreaks_append fun _ => by decide
    rw [List.append_assoc, List.singleton_append, normalizeChars, cleanLines, pair, ← alone]
    rfl
  · exact normalizeChars_append_blanks (fun isReturn => absurd isReturn ends)
      (by simpa using (by decide : isBlank '\n' = true))

/-- Blank lines in front of a text do not matter. -/
theorem normalizeChars_prepend_blanks
    {blanks text : List Char} (blank : ∀ character ∈ blanks, isBlank character = true)
    (ended : ∀ character ∈ blanks.getLast?, isBreak character = true)
    (apart : text.head? ≠ some '\n') :
    normalizeChars (blanks ++ text) = normalizeChars text := by
  cases last : (withFeeds blanks).getLast? with
  | none =>
      rw [getLast?_withFeeds, List.getLast?_eq_none_iff] at last
      rw [last, List.nil_append]
  | some ending =>
      obtain ⟨start, whole⟩ := List.getLast?_eq_some_iff.1 last
      rw [getLast?_withFeeds] at last
      have isFeed : feedOf ending = '\n' := by
        have isEnding := ended ending last
        rw [isBreak, Bool.or_eq_true, beq_iff_eq, beq_iff_eq] at isEnding
        rcases isEnding with rfl | rfl <;> rfl
      have unified : unifyBreaks blanks = start.map feedOf ++ ['\n'] := by
        rw [unifyBreaks_eq_map, whole, List.map_append, List.map_singleton, isFeed]
      have startBlank : ∀ character ∈ start.map feedOf, isBlank character = true := by
        intro character member
        apply isBlank_of_mem_unifyBreaks blank
        rw [unified]
        exact List.mem_append_left _ member
      have stripped := strip_trimmedLines_prepend startBlank (unifyBreaks text)
      rw [← List.singleton_append, ← List.append_assoc, ← unified,
        ← unifyBreaks_append (fun _ => apart)] at stripped
      exact congrArg (· ++ ['\n']) stripped

/-- A text of blanks only has the normal form of the empty text. -/
theorem normalizeChars_of_blanks
    {text : List Char} (blank : ∀ character ∈ text, isBlank character = true) :
    normalizeChars text = normalizeChars [] := by
  have behind := @normalizeChars_append_blanks [] text (fun ends => nomatch ends) blank
  rwa [List.nil_append] at behind

/-! ## Texts without blank ends -/

/-- The text starts and ends with a character that is not blank. -/
structure IsSolid (text : List Char) : Prop where
  starts : ∃ character ∈ text.head?, isBlank character = false
  ends : ∃ character ∈ text.getLast?, isBlank character = false

theorem isSolid_trim {text : List Char} (notEmpty : trim text ≠ []) :
    IsSolid (trim text) where
  starts := ⟨_, List.head?_eq_some_head notEmpty,
    head?_strip (List.head?_eq_some_head notEmpty)⟩
  ends := ⟨_, List.getLast?_eq_some_getLast notEmpty,
    getLast?_strip (List.getLast?_eq_some_getLast notEmpty)⟩

namespace IsSolid

variable {text indent : List Char}

theorem ne_nil (solid : IsSolid text) : text ≠ [] := by
  rintro rfl
  obtain ⟨_, isHead, _⟩ := solid.starts
  exact absurd isHead nofun

theorem head?_ne (solid : IsSolid text) {blank : Char} (isBlank : isBlank blank = true) :
    text.head? ≠ some blank := by
  intro isHead
  obtain ⟨first, isFirst, notBlank⟩ := solid.starts
  rw [Option.mem_def, isHead, Option.some.injEq] at isFirst
  rw [← isFirst, isBlank] at notBlank
  exact absurd notBlank nofun

theorem getLast?_ne (solid : IsSolid text) {blank : Char} (isBlank : isBlank blank = true) :
    text.getLast? ≠ some blank := by
  intro isLast
  obtain ⟨last, ends, notBlank⟩ := solid.ends
  rw [Option.mem_def, isLast, Option.some.injEq] at ends
  rw [← ends, isBlank] at notBlank
  exact absurd notBlank nofun

theorem withFeeds (solid : IsSolid text) : IsSolid (withFeeds text) := by
  refine ⟨?_, by rw [getLast?_withFeeds]; exact solid.ends⟩
  cases text with
  | nil => exact absurd rfl solid.ne_nil
  | cons first rest =>
      rw [withFeeds_cons]
      · exact solid.starts
      · rintro rfl
        exact absurd rfl (solid.head?_ne (by decide))

theorem map_feedOf (solid : IsSolid text) : IsSolid (text.map feedOf) := by
  have keeps {character : Char} (notBlank : isBlank character = false) :
      feedOf character = character := by
    rw [feedOf, if_neg]
    rintro rfl
    exact absurd notBlank (by decide)
  obtain ⟨first, isFirst, firstNotBlank⟩ := solid.starts
  obtain ⟨last, isLast, lastNotBlank⟩ := solid.ends
  refine ⟨⟨first, ?_, firstNotBlank⟩, ⟨last, ?_, lastNotBlank⟩⟩
  · rw [List.head?_map, isFirst, Option.map_some, keeps firstNotBlank]
    rfl
  · rw [List.getLast?_map, isLast, Option.map_some, keeps lastNotBlank]
    rfl

theorem unifyBreaks (solid : IsSolid text) : IsSolid (unifyBreaks text) := by
  rw [unifyBreaks_eq_map]
  exact solid.withFeeds.map_feedOf

end IsSolid

theorem count_joinLines
    {lines : List (List Char)} (notEmpty : lines ≠ [])
    (single : ∀ line ∈ lines, '\n' ∉ line) :
    (joinLines lines).count '\n' + 1 = lines.length := by
  rw [← length_pieces, joinLines, pieces_join notEmpty single]

theorem dropTrailing_ne_nil
    {line : List Char} {character : Char} (member : character ∈ line)
    (notBlank : isBlank character = false) : dropTrailing isBlank line ≠ [] := by
  rw [Ne, dropTrailing_eq_nil_iff]
  intro blank
  rw [blank character member] at notBlank
  exact absurd notBlank nofun

theorem feed_not_mem_of_plain
    {indent : List Char} (plain : ∀ character ∈ indent, isBreak character = false) :
    '\n' ∉ indent :=
  fun member => absurd (plain _ member) (by decide)

theorem unifyBreaks_of_plain
    {indent : List Char} (plain : ∀ character ∈ indent, isBreak character = false) :
    unifyBreaks indent = indent :=
  unifyBreaks_of_not_mem fun member => absurd (plain _ member) (by decide)

/-- A solid text keeps all its breaks, also with blanks in front of its first line. -/
theorem count_normalizeChars
    {indent text : List Char} (plain : ∀ character ∈ indent, isBreak character = false)
    (solid : IsSolid text) :
    (normalizeChars (indent ++ text)).count '\n' =
      (unifyBreaks text).count '\n' + 1 := by
  have unified : unifyBreaks (indent ++ text) = indent ++ unifyBreaks text := by
    rw [unifyBreaks_append (fun _ => solid.head?_ne (by decide)),
      unifyBreaks_of_plain plain]
  have noFeed := feed_not_mem_of_plain plain
  have starts : ∃ first later,
      trimmedLines (indent ++ unifyBreaks text) = first :: later ∧ first ≠ [] := by
    obtain ⟨first, isFirst, notBlank⟩ := solid.unifyBreaks.starts
    obtain ⟨rest, whole⟩ := List.head?_eq_some_iff.1 isFirst
    obtain ⟨line, later, startsWith⟩ := @pieces_piece_append '\n' rest
    have firstSingle : '\n' ∉ indent ++ [first] := by
      rw [List.mem_append, List.mem_singleton, not_or]
      refine ⟨noFeed, ?_⟩
      rintro rfl
      exact absurd notBlank (by decide)
    rw [trimmedLines, whole, ← List.singleton_append, ← List.append_assoc,
      startsWith _ firstSingle, List.map_cons]
    exact ⟨_, _, rfl, dropTrailing_ne_nil (by simp) notBlank⟩
  have ends : ∃ earlier last,
      trimmedLines (indent ++ unifyBreaks text) = earlier ++ [last] ∧ last ≠ [] := by
    obtain ⟨last, isLast, notBlank⟩ := solid.unifyBreaks.ends
    obtain ⟨start, whole⟩ := List.getLast?_eq_some_iff.1 isLast
    obtain ⟨earlier, line, goesOn⟩ := @pieces_append_piece '\n' (indent ++ start)
    have lastSingle : '\n' ∉ [last] := by
      rw [List.mem_singleton]
      rintro rfl
      exact absurd notBlank (by decide)
    rw [trimmedLines, whole, ← List.append_assoc, goesOn _ lastSingle, List.map_append,
      List.map_singleton]
    exact ⟨_, _, rfl, dropTrailing_ne_nil (by simp) notBlank⟩
  have single : ∀ line ∈ trimmedLines (indent ++ unifyBreaks text), '\n' ∉ line :=
    fun _ => feed_not_mem_trimmedLines
  have lineCount := count_joinLines (trimmedLines_ne_nil _) single
  rw [trimmedLines, List.length_map, length_pieces, List.count_append,
    List.count_eq_zero_of_not_mem noFeed, ← trimmedLines] at lineCount
  rw [normalizeChars, cleanLines, unified, ← trimmedLines,
    joinLines, strip_join_of_ends single starts ends, ← joinLines, List.count_append]
  simp only [List.count_singleton_self]
  omega

theorem exists_indent (blanks : List Char) :
    ∃ outer indent, blanks = outer ++ indent ∧
      (∀ character ∈ outer.getLast?, isBreak character = true) ∧
      ∀ character ∈ indent, isBreak character = false := by
  induction blanks using List.reverseRecOn with
  | nil => exact ⟨[], [], rfl, nofun, nofun⟩
  | append_singleton start last inductionHypothesis =>
      by_cases ends : isBreak last = true
      · exact ⟨start ++ [last], [], by simp, by simpa using ends, nofun⟩
      · obtain ⟨outer, indent, rfl, ended, plain⟩ := inductionHypothesis
        refine ⟨outer, indent ++ [last], by simp, ended, ?_⟩
        simpa [or_imp, forall_and] using ⟨plain, by simpa using ends⟩

/-- Of the blanks around a solid text only the ones in front of its first line are
kept. -/
theorem normalizeChars_around
    {outer indent text after : List Char} (solid : IsSolid text)
    (blankOuter : ∀ character ∈ outer, isBlank character = true)
    (ended : ∀ character ∈ outer.getLast?, isBreak character = true)
    (plain : ∀ character ∈ indent, isBreak character = false)
    (blankAfter : ∀ character ∈ after, isBlank character = true) :
    normalizeChars (outer ++ indent ++ (text ++ after)) =
      normalizeChars (indent ++ text) := by
  have apartOuter : (indent ++ (text ++ after)).head? ≠ some '\n' := by
    cases indent with
    | nil =>
        rw [List.nil_append, List.head?_append_of_ne_nil text solid.ne_nil]
        exact solid.head?_ne (by decide)
    | cons first rest =>
        rw [List.cons_append, List.head?_cons, Ne, Option.some.injEq]
        rintro rfl
        exact feed_not_mem_of_plain plain List.mem_cons_self
  have apartAfter : (indent ++ text).getLast? ≠ some '\r' := by
    rw [List.getLast?_append_of_ne_nil indent solid.ne_nil]
    exact solid.getLast?_ne (by decide)
  rw [List.append_assoc, normalizeChars_prepend_blanks blankOuter ended apartOuter,
    ← List.append_assoc]
  exact normalizeChars_append_blanks (fun ends => absurd ends apartAfter) blankAfter

theorem withFeeds_around
    {outer indent text after : List Char} (solid : IsSolid text)
    (plain : ∀ character ∈ indent, isBreak character = false) :
    withFeeds (outer ++ indent ++ (text ++ after)) =
      withFeeds outer ++ indent ++ (withFeeds text ++ withFeeds after) := by
  have noFeed := feed_not_mem_of_plain plain
  have apartText : (text ++ after).head? ≠ some '\n' := by
    rw [List.head?_append_of_ne_nil text solid.ne_nil]
    exact solid.head?_ne (by decide)
  have apartIndent : indent.head? ≠ some '\n' :=
    fun isHead => noFeed (List.mem_of_mem_head? isHead)
  have apartAfter : text.getLast? ≠ some '\r' := solid.getLast?_ne (by decide)
  rw [withFeeds_append (fun _ => apartText), withFeeds_append (fun _ => apartIndent),
    withFeeds_of_not_mem noFeed, withFeeds_append (fun ends => absurd ends apartAfter)]

theorem IsSolid.normalizeChars_withFeeds_iff
    {indent text : List Char} (solid : IsSolid text)
    (plain : ∀ character ∈ indent, isBreak character = false) :
    normalizeChars (indent ++ Text.withFeeds text) = normalizeChars (indent ++ text) ↔
      ¬['\r', '\r', '\n'] <:+: text := by
  constructor
  · intro same doubled
    have fewer := countP_withFeeds_lt (pair_in_withFeeds_iff.2 doubled)
    have counts := congrArg (List.count '\n') same
    rw [count_normalizeChars plain solid.withFeeds, count_normalizeChars plain solid,
      count_unifyBreaks, count_unifyBreaks] at counts
    omega
  · intro single
    have same : Text.unifyBreaks (Text.withFeeds text) = Text.unifyBreaks text := by
      rw [unifyBreaks_eq_map, unifyBreaks_eq_map,
        withFeeds_of_no_pair (mt pair_in_withFeeds_iff.1 single)]
    have unified : Text.unifyBreaks (indent ++ Text.withFeeds text) =
        Text.unifyBreaks (indent ++ text) := by
      rw [unifyBreaks_append (fun _ => solid.withFeeds.head?_ne (by decide)),
        unifyBreaks_append (fun _ => solid.head?_ne (by decide)), same]
    rw [normalizeChars, cleanLines, unified]
    rfl

/-- Writing pairs as line feeds first changes the normal form exactly if two returns
stand in front of a line feed somewhere between the blank ends of the text. -/
theorem normalizeChars_withFeeds_iff (text : List Char) :
    normalizeChars (withFeeds text) = normalizeChars text ↔
      ¬['\r', '\r', '\n'] <:+: trim text := by
  by_cases nothing : trim text = []
  · have blank := strip_eq_nil_iff.1 nothing
    have blankFeeds : ∀ character ∈ withFeeds text, isBlank character = true :=
      fun character member => blank character ((withFeeds_sublist text).subset member)
    rw [normalizeChars_of_blanks blank, normalizeChars_of_blanks blankFeeds, nothing]
    simp
  · obtain ⟨before, after, whole, blankBefore, blankAfter⟩ :=
      strip_decomposition isBlank text
    obtain ⟨outer, indent, rfl, ended, plain⟩ := exists_indent before
    have solid := isSolid_trim nothing
    have blankOuter : ∀ character ∈ outer, isBlank character = true :=
      fun character member => blankBefore character (List.mem_append_left _ member)
    have blankFeeds {part : List Char} (blank : ∀ character ∈ part, isBlank character = true) :
        ∀ character ∈ withFeeds part, isBlank character = true :=
      fun character member => blank character ((withFeeds_sublist part).subset member)
    have endedFeeds : ∀ character ∈ (withFeeds outer).getLast?, isBreak character = true := by
      rw [getLast?_withFeeds]
      exact ended
    rw [← trim] at whole
    rw [← solid.normalizeChars_withFeeds_iff plain]
    conv_lhs => rw [whole]
    rw [withFeeds_around solid plain,
      normalizeChars_around solid blankOuter ended plain blankAfter,
      normalizeChars_around solid.withFeeds (blankFeeds blankOuter) endedFeeds plain
        (blankFeeds blankAfter)]

/-- A text that is put together from its lines has the normal form of the text with its
pairs written as line feeds. -/
theorem normalizeChars_joinLines_lines (text : List Char) :
    normalizeChars (joinLines (lines text)) = normalizeChars (withFeeds text) := by
  rcases joinLines_lines text with same | same
  · rw [same]
  · rw [← same, normalizeChars_append_feed]

end LectureQuiz.Text
