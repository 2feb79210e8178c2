import LectureQuiz.Proofs.VideoIndex.Resolution

/-!
# Rows without an id

A row that names no id is kept under the slug of its title. When the title has no
slug either, the entry is kept under the empty id, and there every name without a slug
finds it. Names without a slug keep to themselves exactly if there is no such row.
-/

namespace LectureQuiz

open LectureQuiz.Text

namespace VideoIndex

/-- The cells of a row under the names of the columns. -/
structure Row where
  header : List String
  cells : List String
  deriving DecidableEq

namespace Row

def parsed? (row : Row) : Option VideoEntry :=
  entryOfRow? row.header row.cells

/-- The row can be read, names no id, and has a title without a slug. -/
structure IsNameless (row : Row) : Prop where
  readable : isReadable row.header row.cells = true
  noId : cell row.header row.cells "video_id" = ""
  noSlug : slug (cell row.header row.cells "title") = ""

theorem map_videoId_parsed? (row : Row) :
    row.parsed?.map VideoEntry.videoId =
      if isReadable row.header row.cells then
        some (if cell row.header row.cells "video_id" = "" then
          slug (cell row.header row.cells "title")
        else cell row.header row.cells "video_id")
      else none := by
  rw [parsed?, entryOfRow?]
  split <;> rfl

theorem isNameless_iff {row : Row} :
    row.IsNameless ↔ ∃ entry, row.parsed? = some entry ∧ entry.videoId = "" := by
  rw [← Option.map_eq_some_iff, map_videoId_parsed?]
  constructor
  · intro nameless
    rw [if_pos nameless.readable, if_pos nameless.noId, nameless.noSlug]
  · intro noId
    split at noId
    · rename_i readable
      rw [Option.some.injEq] at noId
      by_cases isBlank : cell row.header row.cells "video_id" = ""
      · rw [if_pos isBlank] at noId
        exact ⟨readable, isBlank, noId⟩
      · rw [if_neg isBlank] at noId
        exact absurd noId isBlank
    · exact absurd noId nofun

end Row

/-- The rows of a table. -/
def rowsOf (bytes : List UInt8) : List Row :=
  match Csv.records bytes with
  | [] => []
  | header :: records =>
      match cells? header with
      | none => []
      | some names => records.filterMap fun record => (cells? record).map (Row.mk names)

theorem eq_ofEntries_of_ofCsv?
    {bytes : List UInt8} {index : VideoIndex} (isRead : ofCsv? bytes = some index) :
    index = ofEntries ((rowsOf bytes).filterMap Row.parsed?) := by
  rw [ofCsv?] at isRead
  rw [rowsOf]
  cases found : Csv.records bytes with
  | nil =>
      rw [found] at isRead
      rw [← Option.some.inj isRead]
      rfl
  | cons header records =>
      rw [found] at isRead
      obtain ⟨names, areNames, filled⟩ := Option.bind_eq_some_iff.1 isRead
      rw [← Option.some.inj filled]
      simp only [areNames, List.filterMap_filterMap]
      congr 2
      funext record
      cases cells? record <;> rfl

/-- The index was filled from the rows in this order: it was read from the bytes of a
table, or entries of rows were inserted one by one. -/
inductive Filled : List Row → VideoIndex → Prop
  | empty : Filled [] empty
  | ofCsv {bytes : List UInt8} {index : VideoIndex}
      (isRead : ofCsv? bytes = some index) : Filled (rowsOf bytes) index
  | insert {rows : List Row} {index : VideoIndex} {row : Row} {entry : VideoEntry}
      (filled : Filled rows index) (given : row.parsed? = some entry) :
      Filled (rows ++ [row]) (index.insert entry)

variable {rows : List Row} {index : VideoIndex} {stem : String}

theorem Filled.eq_ofEntries (filled : Filled rows index) :
    index = ofEntries (rows.filterMap Row.parsed?) := by
  induction filled with
  | empty => rfl
  | ofCsv isRead => exact eq_ofEntries_of_ofCsv? isRead
  | insert _ given inductionHypothesis =>
      rw [List.filterMap_append, List.filterMap_cons_some given, List.filterMap_nil,
        ofEntries, List.foldl_append, ← ofEntries, ← inductionHypothesis]
      rfl

/-- An entry is kept under the empty id exactly if a row gave one. -/
theorem Filled.get?_empty_eq_none_iff (filled : Filled rows index) :
    index.get? "" = none ↔ ∀ row ∈ rows, ¬row.IsNameless := by
  rw [filled.eq_ofEntries, get?_ofEntries, List.getLast?_eq_none_iff,
    List.filter_eq_nil_iff]
  simp only [List.mem_filterMap, beq_iff_eq, Row.isNameless_iff, not_exists, not_and]
  constructor
  · intro named row member entry given
    exact named entry ⟨row, member, given⟩
  · rintro named entry ⟨row, member, given⟩
    exact named row member entry given

theorem resolve_of_noSlug
    (unknown : index.get? stem = none) (noSlug : slug stem = "") :
    index.resolve stem =
      match index.get? "" with
      | none => (syntheticEntry stem stem, .synthetic)
      | some entry => (entry, .bySlug) := by
  cases found : index.get? "" with
  | none =>
      rw [resolve_of_unknown unknown (noSlug ▸ found), if_pos noSlug]
  | some entry =>
      exact resolve_of_get?_slug unknown (noSlug ▸ found)

theorem videoId_resolve_of_slug
    (unknown : index.get? stem = none) (hasSlug : slug stem ≠ "") :
    (index.resolve stem).1.videoId = slug stem := by
  cases found : index.get? (slug stem) with
  | none => rw [resolve_of_unknown unknown found, if_neg hasSlug, syntheticEntry]
  | some entry => rw [resolve_of_get?_slug unknown found, videoId_of_get? found]

/-- Only the entry under the empty id can lend it to a name. -/
theorem videoId_resolve_eq_empty_iff (named : stem ≠ "") :
    (index.resolve stem).1.videoId = "" ↔
      index.get? stem = none ∧ slug stem = "" ∧ index.get? "" ≠ none := by
  cases found : index.get? stem with
  | some entry =>
      rw [resolve_of_get? found, videoId_of_get? found]
      exact ⟨fun isEmpty => absurd isEmpty named, fun unknown => absurd unknown.1 nofun⟩
  | none =>
  by_cases noSlug : slug stem = ""
  · rw [resolve_of_noSlug found noSlug]
    cases kept : index.get? "" with
    | none => simp [syntheticEntry, named]
    | some entry => simp [videoId_of_get? kept, noSlug]
  · rw [videoId_resolve_of_slug found noSlug]
    exact ⟨fun isEmpty => absurd isEmpty noSlug, fun unknown => unknown.2.1⟩

theorem resolve_eq_synthetic_iff
    (unknown : index.get? stem = none) (noSlug : slug stem = "") :
    index.resolve stem = (syntheticEntry stem stem, .synthetic) ↔
      index.get? "" = none := by
  rw [resolve_of_noSlug unknown noSlug]
  cases index.get? "" with
  | none => simp
  | some entry => simp

/-- In an index that was filled from rows, a name is resolved to the empty id exactly if
it is no id, has no slug, and there is a row with neither an id nor a title with a
slug. Without such a row, a name that is no id and has no slug is resolved to a made-up
entry with the name for its title and its id, and with one it never is. -/
theorem Filled.resolve_iff_nameless
    (filled : Filled rows index) (named : stem ≠ "") :
    ((index.resolve stem).1.videoId = "" ↔
        index.get? stem = none ∧ slug stem = "" ∧ ∃ row ∈ rows, row.IsNameless) ∧
      (index.get? stem = none → slug stem = "" →
        (index.resolve stem = (⟨0, "", stem, "", stem⟩, .synthetic) ↔
          ∀ row ∈ rows, ¬row.IsNameless)) := by
  have kept := filled.get?_empty_eq_none_iff
  constructor
  · rw [videoId_resolve_eq_empty_iff named, Ne, kept]
    simp only [not_forall, not_not, exists_prop]
  · intro unknown noSlug
    exact (resolve_eq_synthetic_iff unknown noSlug).trans kept

/-- One row names its id, the other has a title with a slug. -/
theorem resolve_of_namedRows :
    let bytes := "title,module,video_id\n归纳法,6,lec01\nGraphs,10,\n".toUTF8.data.toList
    ∃ index, Filled (rowsOf bytes) index ∧ "图论" ≠ "" ∧
      index.get? "图论" = none ∧ slug "图论" = "" ∧
      index.resolve "图论" = (⟨0, "", "图论", "", "图论"⟩, .synthetic) := by
  intro bytes
  have isRead : ((ofCsv? bytes).map (·.get? "图论")) = some none := by decide +kernel
  obtain ⟨index, read, unknown⟩ := Option.map_eq_some_iff.1 isRead
  have noSlug : slug "图论" = "" := by decide +kernel
  have rows : rowsOf bytes =
      [⟨["title", "module", "video_id"], ["归纳法", "6", "lec01"]⟩,
        ⟨["title", "module", "video_id"], ["Graphs", "10", ""]⟩] := by
    decide +kernel
  have named : ∀ row ∈ rowsOf bytes, ¬row.IsNameless := by
    rw [rows, List.forall_mem_cons, List.forall_mem_singleton]
    exact ⟨fun nameless => absurd nameless.noId (by decide),
      fun nameless => absurd nameless.noSlug (by decide)⟩
  have filled : Filled (rowsOf bytes) index := .ofCsv read
  have resolved := Filled.resolve_iff_nameless filled (show "图论" ≠ "" by decide)
  exact ⟨index, filled, by decide, unknown, noSlug, (resolved.2 unknown noSlug).2 named⟩

/-- A title and a name of a file, neither of which has a letter or digit of a slug: the
file takes over the entry of the title, and with it the empty id. -/
theorem resolve_of_namelessRow :
    let table := "title,module,url,topic,video_id\n" ++
      "归纳法,6,https://example.com/v/1,Induction,\n"
    "图论" ≠ "" ∧ slug "图论" = "" ∧
      (ofCsv? table.toUTF8.data.toList).map
          (fun index => (index.get? "图论", index.resolve "图论")) =
        some (none, ⟨6, "Induction", "归纳法", "https://example.com/v/1", ""⟩,
          .bySlug) := by
  decide +kernel

end VideoIndex

end LectureQuiz
