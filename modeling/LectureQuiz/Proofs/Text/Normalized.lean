import Mathlib.Data.List.DropRight
import LectureQuiz.Proofs.Text.Pieces
import LectureQuiz.Text.Normalized

/-!
# Normal bodies

A normal body has no carriage return, no blank end of a line and no line feed at
its ends. Normalizing gives a normal body and its closing line feed, and line
feeds around a normal body are all that it takes away.
-/

namespace LectureQuiz.Text

section Stripping

variable {alpha : Type} {drop : alpha → Bool}

theorem dropTrailing_eq_rdropWhile (items : List alpha) :
    dropTrailing drop items = items.rdropWhile drop := rfl

theorem dropTrailing_idempotent (items : List alpha) :
    dropTrailing drop (dropTrailing drop items) = dropTrailing drop items :=
  List.rdropWhile_idempotent _ _

theorem mem_of_mem_dropTrailing
    {items : List alpha} {item : alpha}
    (member : item ∈ dropTrailing drop items) : item ∈ items :=
  (List.rdropWhile_prefix drop items).subset member

theorem dropTrailing_append_of_all
    (items : List alpha) {ending : List alpha}
    (all : ∀ item ∈ ending, drop item = true) :
    dropTrailing drop (items ++ ending) = dropTrailing drop items := by
  rw [dropTrailing, List.reverse_append, List.dropWhile_append_of_pos]
  · rfl
  · simpa using all

/-- Nothing is dropped in front of an element that is kept. -/
theorem dropTrailing_append_cons
    (front : List alpha) {item : alpha} (kept : drop item = false) (rest : List alpha) :
    dropTrailing drop (front ++ item :: rest) = front ++ item :: dropTrailing drop rest := by
  rw [dropTrailing, List.reverse_append, List.reverse_cons, List.append_assoc,
    List.dropWhile_append]
  split
  · rename_i nothing
    rw [List.isEmpty_iff] at nothing
    simp [dropTrailing, nothing, kept]
  · simp [dropTrailing]

theorem strip_append_cons
    {before : List alpha} {item : alpha} (allBefore : ∀ item ∈ before, drop item = true)
    (kept : drop item = false) (rest : List alpha) :
    strip drop (before ++ item :: rest) = item :: dropTrailing drop rest := by
  rw [strip, List.dropWhile_append_of_pos allBefore,
    List.dropWhile_cons_of_neg (by simp [kept])]
  exact dropTrailing_append_cons [] kept rest

/-- What may be dropped around a list does not change what is left of it. -/
theorem strip_of_all
    {before after : List alpha} (items : List alpha)
    (allBefore : ∀ item ∈ before, drop item = true)
    (allAfter : ∀ item ∈ after, drop item = true) :
    strip drop (before ++ (items ++ after)) = strip drop items := by
  rw [strip, List.dropWhile_append_of_pos allBefore, List.dropWhile_append]
  split
  · rename_i nothing
    rw [List.isEmpty_iff] at nothing
    rw [strip, nothing, List.dropWhile_eq_nil_iff.2 allAfter]
  · exact dropTrailing_append_of_all _ allAfter

/-- A list is what is left of it between two parts that are dropped. -/
theorem strip_decomposition (drop : alpha → Bool) (items : List alpha) :
    ∃ before after, items = before ++ (strip drop items ++ after) ∧
      (∀ item ∈ before, drop item = true) ∧
      ∀ item ∈ after, drop item = true := by
  refine ⟨items.takeWhile drop,
    ((items.dropWhile drop).reverse.takeWhile drop).reverse, ?_, ?_, ?_⟩
  · rw [strip, dropTrailing_append_takeWhile, List.takeWhile_append_dropWhile]
  · exact fun item member => List.mem_takeWhile_imp member
  · intro item member
    exact List.mem_takeWhile_imp (List.mem_reverse.1 member)

theorem strip_idempotent (items : List alpha) :
    strip drop (strip drop items) = strip drop items := by
  obtain ⟨before, after, whole, allBefore, allAfter⟩ :=
    strip_decomposition drop items
  conv_rhs => rw [whole]
  rw [strip_of_all _ allBefore allAfter]

theorem strip_of_ends
    {items : List alpha} (starts : ∀ item ∈ items.head?, drop item = false)
    (ends : ∀ item ∈ items.getLast?, drop item = false) : strip drop items = items := by
  have atStart : items.dropWhile drop = items := by
    cases items with
    | nil => rfl
    | cons first rest => rw [List.dropWhile_cons, starts first rfl, if_neg Bool.false_ne_true]
  rw [strip, atStart, dropTrailing_eq_rdropWhile, List.rdropWhile_eq_self_iff]
  intro notEmpty
  rw [ends _ (List.getLast?_eq_some_getLast notEmpty)]
  exact Bool.false_ne_true

theorem head?_strip
    {items : List alpha} {item : alpha} (isHead : (strip drop items).head? = some item) :
    drop item = false := by
  have notDropped := List.head?_dropWhile_not drop items
  rw [strip] at isHead
  cases left : items.dropWhile drop with
  | nil => simp [left] at isHead
  | cons first rest =>
      rw [left, List.head?_cons] at notDropped
      rw [left, ← List.nil_append (first :: rest), dropTrailing_append_cons [] notDropped,
        List.nil_append, List.head?_cons, Option.some.injEq] at isHead
      rw [← isHead]
      exact notDropped

theorem getLast?_strip
    {items : List alpha} {item : alpha} (isLast : (strip drop items).getLast? = some item) :
    drop item = false := by
  rw [strip, dropTrailing_eq_rdropWhile] at isLast
  have notEmpty : (items.dropWhile drop).rdropWhile drop ≠ [] := by
    intro nothing
    simp [nothing] at isLast
  have notDropped := List.rdropWhile_last_not drop _ notEmpty
  rw [List.getLast?_eq_some_getLast notEmpty, Option.some.injEq] at isLast
  rw [isLast] at notDropped
  exact Bool.eq_false_iff.2 notDropped

theorem length_strip_le (drop : alpha → Bool) (items : List alpha) :
    (strip drop items).length ≤ items.length := by
  obtain ⟨before, after, whole, _, _⟩ := strip_decomposition drop items
  conv_rhs => rw [whole]
  simp only [List.length_append]
  omega

theorem strip_eq_nil_iff {items : List alpha} :
    strip drop items = [] ↔ ∀ item ∈ items, drop item = true := by
  constructor
  · intro nothing
    obtain ⟨before, after, whole, allBefore, allAfter⟩ :=
      strip_decomposition drop items
    rw [nothing, List.nil_append] at whole
    intro item member
    rw [whole] at member
    exact (List.mem_append.1 member).elim (allBefore item) (allAfter item)
  · intro all
    have stripped : strip drop (items ++ ([] ++ [])) = strip drop [] :=
      strip_of_all [] all (by simp)
    simpa using stripped

end Stripping

/-- Parts of which the first and the last are not empty stay as they are. -/
theorem strip_join_of_ends
    {separator : Char} {parts : List (List Char)}
    (single : ∀ part ∈ parts, separator ∉ part)
    (starts : ∃ first later, parts = first :: later ∧ first ≠ [])
    (ends : ∃ earlier last, parts = earlier ++ [last] ∧ last ≠ []) :
    strip (· == separator) (join separator parts) = join separator parts := by
  apply strip_of_ends
  · obtain ⟨first, later, rfl, notEmpty⟩ := starts
    intro character isHead
    rw [head?_join notEmpty] at isHead
    rw [beq_eq_false_iff_ne]
    rintro rfl
    exact single first List.mem_cons_self (List.mem_of_mem_head? isHead)
  · obtain ⟨earlier, last, rfl, notEmpty⟩ := ends
    intro character isLast
    rw [getLast?_join earlier notEmpty] at isLast
    rw [beq_eq_false_iff_ne]
    rintro rfl
    exact single last (by simp) (List.mem_of_getLast? isLast)

/-- What a line has behind it before its carriage return is dropped is blank. -/
theorem exists_blanks_dropReturn (line : List Char) :
    ∃ blanks, line = dropReturn line ++ blanks ∧
      ∀ character ∈ blanks, isBlank character = true := by
  by_cases ends : line.getLast? = some '\r'
  · obtain ⟨start, rfl⟩ := List.getLast?_eq_some_iff.1 ends
    refine ⟨['\r'], by rw [dropReturn_append_return], ?_⟩
    exact List.forall_mem_singleton.2 (by decide)
  · exact ⟨[], by rw [dropReturn, if_neg ends, List.append_nil], nofun⟩

theorem dropTrailing_dropReturn (line : List Char) :
    dropTrailing isBlank (dropReturn line) = dropTrailing isBlank line := by
  obtain ⟨blanks, whole, blank⟩ := exists_blanks_dropReturn line
  conv_rhs => rw [whole]
  rw [dropTrailing_append_of_all _ blank]

theorem trim_dropReturn (line : List Char) : trim (dropReturn line) = trim line := by
  obtain ⟨blanks, whole, blank⟩ := exists_blanks_dropReturn line
  have stripped := @strip_of_all _ isBlank [] blanks (dropReturn line) nofun blank
  rw [List.nil_append, ← whole] at stripped
  exact stripped.symm

theorem mem_pieces_of_feeds
    {before after text piece : List Char}
    (allBefore : ∀ character ∈ before, character = '\n')
    (allAfter : ∀ character ∈ after, character = '\n')
    (member : piece ∈ pieces '\n' text) :
    piece ∈ pieces '\n' (before ++ (text ++ after)) := by
  induction before with
  | nil =>
      cases after with
      | nil => simpa using member
      | cons first rest =>
          rw [allAfter first List.mem_cons_self, List.nil_append,
            pieces_append_separator]
          exact List.mem_append_left _ member
  | cons first rest inductionHypothesis =>
      rw [allBefore first List.mem_cons_self, List.cons_append, pieces,
        if_pos rfl]
      refine List.mem_cons_of_mem _ (inductionHypothesis ?_)
      exact fun character inRest =>
        allBefore character (List.mem_cons_of_mem _ inRest)

theorem eq_nil_of_mem_pieces_feeds
    {feeds piece : List Char} (all : ∀ character ∈ feeds, character = '\n')
    (member : piece ∈ pieces '\n' feeds) : piece = [] := by
  rw [List.eq_nil_iff_forall_not_mem]
  intro character inside
  have isFeed := all character (mem_of_mem_pieces member inside)
  exact not_mem_of_mem_pieces member (isFeed ▸ inside)

/-- Line feeds around a text add only empty pieces. -/
theorem eq_nil_or_mem_of_mem_pieces
    {before after text piece : List Char}
    (allBefore : ∀ character ∈ before, character = '\n')
    (allAfter : ∀ character ∈ after, character = '\n')
    (member : piece ∈ pieces '\n' (before ++ (text ++ after))) :
    piece = [] ∨ piece ∈ pieces '\n' text := by
  induction before with
  | nil =>
      cases after with
      | nil => exact Or.inr (by simpa using member)
      | cons first rest =>
          rw [allAfter first List.mem_cons_self, List.nil_append,
            pieces_append_separator, List.mem_append] at member
          rcases member with inText | inFeeds
          · exact Or.inr inText
          · refine Or.inl (eq_nil_of_mem_pieces_feeds ?_ inFeeds)
            exact fun character inRest =>
              allAfter character (List.mem_cons_of_mem _ inRest)
  | cons first rest inductionHypothesis =>
      rw [allBefore first List.mem_cons_self, List.cons_append, pieces,
        if_pos rfl] at member
      rcases List.mem_cons.1 member with isEmpty | inRest
      · exact Or.inl isEmpty
      · refine inductionHypothesis ?_ inRest
        exact fun character inside =>
          allBefore character (List.mem_cons_of_mem _ inside)

/-! ## Normal bodies -/

theorem unifyBreaks_of_not_mem
    {text : List Char} (noReturn : '\r' ∉ text) : unifyBreaks text = text := by
  induction text with
  | nil => rfl
  | cons first rest inductionHypothesis =>
      rw [List.mem_cons, not_or] at noReturn
      rw [unifyBreaks, inductionHypothesis noReturn.2]
      · rintro _ rfl
        exact absurd rfl noReturn.1
      · rintro rfl
        exact absurd rfl noReturn.1

theorem return_not_mem_unifyBreaks (text : List Char) :
    '\r' ∉ unifyBreaks text := by
  fun_induction unifyBreaks text with
  | case1 => exact List.not_mem_nil
  | case2 rest inductionHypothesis => simpa using inductionHypothesis
  | case3 rest _ inductionHypothesis => simpa using inductionHypothesis
  | case4 character rest _ notReturn inductionHypothesis =>
      rw [List.mem_cons, not_or]
      exact ⟨fun same => notReturn same.symm, inductionHypothesis⟩

/-- A body without its closing line feed, as normalizing gives it. -/
structure IsNormal (text : List Char) : Prop where
  noReturn : '\r' ∉ text
  clean : ∀ piece ∈ pieces '\n' text, dropTrailing isBlank piece = piece
  stripped : strip (· == '\n') text = text

theorem pieces_joinLines_cleanLines (raw : List Char) :
    pieces '\n' (joinLines (cleanLines raw)) = cleanLines raw := by
  refine pieces_join ?_ ?_
  · simp [cleanLines, pieces_ne_nil]
  · intro line member inside
    obtain ⟨piece, inPieces, rfl⟩ := List.mem_map.1 member
    exact not_mem_of_mem_pieces inPieces (mem_of_mem_dropTrailing inside)

theorem return_not_mem_joinLines_cleanLines (raw : List Char) :
    '\r' ∉ joinLines (cleanLines raw) := by
  intro member
  rcases eq_or_mem_of_mem_join member with isFeed | ⟨line, inLines, inside⟩
  · exact absurd isFeed (by decide)
  · obtain ⟨piece, inPieces, rfl⟩ := List.mem_map.1 inLines
    exact return_not_mem_unifyBreaks raw
      (mem_of_mem_pieces inPieces (mem_of_mem_dropTrailing inside))

/-- What normalizing gives in front of the closing line feed is normal. -/
theorem isNormal_strip (raw : List Char) :
    IsNormal (strip (· == '\n') (joinLines (cleanLines raw))) := by
  obtain ⟨before, after, whole, allBefore, allAfter⟩ :=
    strip_decomposition (· == '\n') (joinLines (cleanLines raw))
  simp only [beq_iff_eq] at allBefore allAfter
  refine ⟨?_, ?_, strip_idempotent _⟩
  · intro member
    refine return_not_mem_joinLines_cleanLines raw ?_
    rw [whole]
    exact List.mem_append_right _ (List.mem_append_left _ member)
  · intro piece member
    have inLines : piece ∈ cleanLines raw := by
      rw [← pieces_joinLines_cleanLines, whole]
      exact mem_pieces_of_feeds allBefore allAfter member
    obtain ⟨line, _, rfl⟩ := List.mem_map.1 inLines
    exact dropTrailing_idempotent line

/-- Line feeds around a normal body are all that normalizing takes away. -/
theorem normalizeChars_of_isNormal
    {before after text : List Char} (normal : IsNormal text)
    (allBefore : ∀ character ∈ before, character = '\n')
    (allAfter : ∀ character ∈ after, character = '\n') :
    normalizeChars (before ++ (text ++ after)) = text ++ ['\n'] := by
  have noReturn : '\r' ∉ before ++ (text ++ after) := by
    simp only [List.mem_append, not_or]
    refine ⟨?_, normal.noReturn, ?_⟩
    · exact fun member => absurd (allBefore _ member) (by decide)
    · exact fun member => absurd (allAfter _ member) (by decide)
  have clean : cleanLines (before ++ (text ++ after)) =
      pieces '\n' (before ++ (text ++ after)) := by
    rw [cleanLines, unifyBreaks_of_not_mem noReturn]
    conv_rhs => rw [← List.map_id (pieces _ _)]
    refine List.map_congr_left fun piece member => ?_
    rcases eq_nil_or_mem_of_mem_pieces allBefore allAfter member with
      rfl | inText
    · rfl
    · exact normal.clean piece inText
  rw [normalizeChars, clean, joinLines, join_pieces, strip_of_all,
    normal.stripped]
  · simpa using allBefore
  · simpa using allAfter

end LectureQuiz.Text
