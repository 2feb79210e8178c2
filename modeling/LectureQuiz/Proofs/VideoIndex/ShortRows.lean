import LectureQuiz.Proofs.VideoIndex.Table

/-!
# Rows that end early

A row that ends before the last column is read as if the missing fields were empty, but
only when nothing but the id is missing. A row without another column is passed over,
whatever else it tells.
-/

namespace LectureQuiz

open LectureQuiz.Text

namespace Csv

variable {line : Line}

theorem isPlainField_withoutMark
    (plain : ∀ field ∈ line.fields, IsPlainField field) :
    ∀ field ∈ line.withoutMark.fields, IsPlainField field := by
  obtain ⟨fields, ending⟩ := line
  cases fields with
  | nil => exact plain
  | cons first rest =>
      rw [List.forall_mem_cons] at plain
      refine List.forall_mem_cons.2 ⟨fun character member => plain.1 character ?_, plain.2⟩
      rw [String.toList_ofList, withoutMark] at member
      split at member
      · exact List.mem_of_mem_tail member
      · exact member

theorem length_names (line : Line) : line.names.length = line.fields.length := by
  obtain ⟨fields, ending⟩ := line
  cases fields with
  | nil => rfl
  | cons first rest => simp [Line.names, Line.withoutMark]

end Csv

namespace VideoIndex

variable {header row : Csv.Line} {rows : List Csv.Line} {names cells : List String}

/-- The row lacks no column but that of the id. -/
def LacksIdAtMost (names : List String) (row : Csv.Line) : Prop :=
  ∀ name ∈ names.drop row.fields.length, name = "video_id"

instance (names : List String) (row : Csv.Line) : Decidable (LacksIdAtMost names row) :=
  inferInstanceAs (Decidable (∀ name ∈ _, _))

/-- The row with empty fields in the columns that it lacks. -/
def padded (columns : Nat) (row : Csv.Line) : Csv.Line :=
  { row with fields := row.fields ++ List.replicate (columns - row.fields.length) "" }

theorem lookup_zip_replicate (names : List String) (count : Nat) (column : String) :
    ((names.zip (List.replicate count "")).lookup column).getD "" = "" := by
  induction names generalizing count with
  | nil => rfl
  | cons name others inductionHypothesis =>
      cases count with
      | zero => rfl
      | succ count =>
          rw [List.replicate_succ, List.zip_cons_cons, List.lookup_cons]
          split
          · rfl
          · exact inductionHypothesis count

/-- An empty field reads as a missing one. -/
theorem cell_append_replicate (names cells : List String) (count : Nat) (column : String) :
    cell names (cells ++ List.replicate count "") column = cell names cells column := by
  induction names generalizing cells with
  | nil => rfl
  | cons name others inductionHypothesis =>
      cases cells with
      | nil => exact lookup_zip_replicate (name :: others) count column
      | cons field fields =>
          rw [cell, cell, List.cons_append, List.zip_cons_cons, List.zip_cons_cons,
            List.lookup_cons, List.lookup_cons]
          split
          · rfl
          · exact inductionHypothesis fields

theorem isReadable_iff :
    isReadable names cells = true ↔
      (names.filter columns.contains).Nodup ∧
        ∀ name ∈ names.drop cells.length, name = "video_id" := by
  rw [isReadable, Bool.and_eq_true, decide_eq_true_eq, List.all_eq_true]
  simp only [beq_iff_eq]

theorem entryOfRow?_append_replicate
    (readable : isReadable names cells = true) (count : Nat)
    (alsoReadable : isReadable names (cells ++ List.replicate count "") = true) :
    entryOfRow? names (cells ++ List.replicate count "") = entryOfRow? names cells := by
  rw [entryOfRow?, entryOfRow?, if_pos readable, if_pos alsoReadable]
  simp only [cell_append_replicate]

theorem map_trimmed_padded (count : Nat) (row : Csv.Line) :
    (padded count row).fields.map trimmed =
      row.fields.map trimmed ++ List.replicate (count - row.fields.length) "" := by
  rw [padded, List.map_append, List.map_replicate, trimmed_empty]

theorem isReadable_padded_iff (names : List String) (row : Csv.Line) :
    isReadable names ((padded names.length row).fields.map trimmed) = true ↔
      (names.filter columns.contains).Nodup := by
  rw [isReadable_iff, List.drop_eq_nil_of_le]
  · exact ⟨fun readable => readable.1, fun distinct => ⟨distinct, nofun⟩⟩
  · rw [map_trimmed_padded, List.length_append, List.length_map, List.length_replicate]
    omega

/-- A row gives the entry of the padded row if it lacks the id at most, and no entry
otherwise. -/
theorem entryOfRow?_eq_padded (names : List String) (row : Csv.Line) :
    entryOfRow? names (row.fields.map trimmed) =
      if LacksIdAtMost names row then
        entryOfRow? names ((padded names.length row).fields.map trimmed)
      else none := by
  have readableIff : isReadable names (row.fields.map trimmed) = true ↔
      (names.filter columns.contains).Nodup ∧ LacksIdAtMost names row := by
    rw [isReadable_iff, List.length_map, LacksIdAtMost]
  have paddedIff := isReadable_padded_iff names row
  by_cases readable : isReadable names (row.fields.map trimmed) = true
  · obtain ⟨distinct, lacksIdAtMost⟩ := readableIff.1 readable
    have alsoReadable := paddedIff.2 distinct
    rw [map_trimmed_padded] at alsoReadable ⊢
    rw [if_pos lacksIdAtMost, entryOfRow?_append_replicate readable _ alsoReadable]
  · rw [entryOfRow?, if_neg readable]
    split
    · rename_i lacksIdAtMost
      have notReadable : ¬isReadable names
          ((padded names.length row).fields.map trimmed) = true := fun alsoReadable =>
        readable (readableIff.2 ⟨paddedIff.1 alsoReadable, lacksIdAtMost⟩)
      rw [entryOfRow?, if_neg notReadable]
    · rfl

theorem isPlain_padded (count : Nat) (plain : row.IsPlain) : (padded count row).IsPlain := by
  obtain ⟨notEmpty, notBlank, plainFields⟩ := plain
  refine ⟨?_, ?_, ?_⟩
  · exact List.append_ne_nil_of_left_ne_nil notEmpty _
  · intro isBlank
    rcases List.append_eq_singleton_iff.1 isBlank with ⟨isEmpty, _⟩ | ⟨isBlank, _⟩
    · exact notEmpty isEmpty
    · exact notBlank isBlank
  · refine List.forall_mem_append.2 ⟨plainFields, fun field member => ?_⟩
    rw [List.eq_of_mem_replicate member]
    exact nofun

theorem isPlain_header
    (plain : ∀ field ∈ header.fields, Csv.IsPlainField field)
    (named : ∀ column ∈ columns, column ∈ header.names) : header.withoutMark.IsPlain := by
  refine isPlain_of_several ?_ (Csv.isPlainField_withoutMark plain)
  have title := named "title" (by decide)
  have module := named "module" (by decide)
  have sameLength : header.names.length = header.withoutMark.fields.length := List.length_map _
  rw [← sameLength]
  cases given : header.names with
  | nil =>
      rw [given] at title
      exact absurd title List.not_mem_nil
  | cons first rest =>
      cases rest with
      | nil =>
          rw [given, List.mem_singleton] at title module
          exact absurd (title.trans module.symm) (by decide)
      | cons second more => exact Nat.le_add_left 2 _

/-- A row alone gives what it gives padded exactly if it lacks the id at most. -/
theorem ofEntries_row_iff
    (distinct : (names.filter columns.contains).Nodup) (row : Csv.Line) :
    let entryOf (row : Csv.Line) := entryOfRow? names (row.fields.map trimmed)
    ofEntries ([row].filterMap entryOf) =
        ofEntries ([padded names.length row].filterMap entryOf) ↔
      LacksIdAtMost names row := by
  intro entryOf
  have fromPadded : entryOf row =
      if LacksIdAtMost names row then entryOf (padded names.length row) else none :=
    entryOfRow?_eq_padded names row
  obtain ⟨entry, paddedEntry, _⟩ :=
    exists_isEntryOf ((isReadable_padded_iff names row).2 distinct)
  have given : entryOf (padded names.length row) = some entry := paddedEntry
  rw [List.filterMap_cons_some given]
  by_cases lacksIdAtMost : LacksIdAtMost names row
  · rw [if_pos lacksIdAtMost] at fromPadded
    rw [List.filterMap_cons_some (fromPadded.trans given)]
    exact iff_of_true rfl lacksIdAtMost
  · rw [if_neg lacksIdAtMost] at fromPadded
    rw [List.filterMap_cons_none fromPadded]
    refine iff_of_false (fun same => ?_) lacksIdAtMost
    exact absurd (congrArg size same) (by simp [size_ofEntries])

/-- Rows under a header of all columns are read as if they were padded with empty fields,
but for the rows that lack another column than the id: these are passed over. When no
column is named twice, a row alone is read as the padded row exactly if it lacks the id at
most. -/
theorem ofCsv?_shortRows
    {header : Csv.Line} {rows : List Csv.Line}
    (headerPlain : ∀ field ∈ header.fields, Csv.IsPlainField field)
    (named : ∀ column ∈ columns, column ∈ header.names)
    (rowsPlain : ∀ row ∈ rows, row.IsPlain) :
    let columnCount := header.fields.length
    (∃ index : VideoIndex, ofCsv? (Csv.tableBytes (header :: rows)) = some index ∧
      ofCsv? (Csv.tableBytes (header ::
        (rows.filter (LacksIdAtMost header.names ·)).map (padded columnCount))) =
          some index) ∧
      ((header.names.filter columns.contains).Nodup → ∀ row ∈ rows,
        (ofCsv? (Csv.tableBytes [header, row]) =
            ofCsv? (Csv.tableBytes [header, padded columnCount row]) ↔
          LacksIdAtMost header.names row)) := by
  intro columnCount
  have headerRead := isPlain_header headerPlain named
  have count : columnCount = header.names.length := (Csv.length_names header).symm
  refine ⟨⟨_, ofCsv?_tableBytes headerRead rowsPlain, ?_⟩, ?_⟩
  · rw [ofCsv?_tableBytes headerRead]
    · have sameEntry (row : Csv.Line) :
          (if decide (LacksIdAtMost header.names row) = true then
            entryOfRow? header.names ((padded columnCount row).fields.map trimmed)
          else none) = entryOfRow? header.names (row.fields.map trimmed) := by
        rw [entryOfRow?_eq_padded header.names row, count]
        simp only [decide_eq_true_eq]
      rw [List.filterMap_map, List.filterMap_filter]
      simp only [Function.comp_apply, sameEntry]
    · intro other member
      obtain ⟨row, kept, rfl⟩ := List.mem_map.1 member
      exact isPlain_padded _ (rowsPlain row (List.mem_of_mem_filter kept))
  · intro distinct row member
    have rowPlain := rowsPlain row member
    rw [ofCsv?_tableBytes headerRead (List.forall_mem_singleton.2 rowPlain),
      ofCsv?_tableBytes headerRead (List.forall_mem_singleton.2 (isPlain_padded _ rowPlain)),
      Option.some.injEq, count]
    exact ofEntries_row_iff distinct row

theorem ofCsv?_shortRows_sample :
    let header : Csv.Line := ⟨["title", "module", "url", "topic", "video_id"], .feed⟩
    let rows : List Csv.Line :=
      [⟨["Graphs", "10", "", "Trees"], .feed⟩, ⟨["Sets", "2"], .returnFeed⟩]
    (∀ row ∈ rows, row.IsPlain) ∧
      ofCsv? (Csv.tableBytes (header :: rows)) =
        ofCsv? (Csv.tableBytes [header, ⟨["Graphs", "10", "", "Trees", ""], .feed⟩]) := by
  intro header rows
  have headerPlain : ∀ field ∈ header.fields, Csv.IsPlainField field := by decide
  have rowsPlain : ∀ row ∈ rows, row.IsPlain := by
    have plainFields : ∀ row ∈ rows, ∀ field ∈ row.fields, Csv.IsPlainField field := by
      decide
    have several : ∀ row ∈ rows, 2 ≤ row.fields.length := by decide
    exact fun row member => isPlain_of_several (several row member) (plainFields row member)
  obtain ⟨index, isRead, paddedRead⟩ :=
    (ofCsv?_shortRows headerPlain (by decide +kernel) rowsPlain).1
  refine ⟨rowsPlain, isRead.trans (paddedRead.symm.trans ?_)⟩
  have kept : (rows.filter (LacksIdAtMost header.names ·)).map (padded header.fields.length) =
      [⟨["Graphs", "10", "", "Trees", ""], .feed⟩] := by decide +kernel
  rw [kept]

/-- A row with a title and a module only is no entry, and with empty fields behind them it
is one. -/
theorem ofCsv?_of_endedRow :
    let header : Csv.Line := ⟨["title", "module", "url", "topic", "video_id"], .feed⟩
    let row : Csv.Line := ⟨["Graphs", "10"], .feed⟩
    Csv.tableChars [header, row] =
        "title,module,url,topic,video_id\nGraphs,10\n".toList ∧
      (ofCsv? (Csv.tableBytes [header, row])).map (·.get? "graphs") = some none ∧
      (ofCsv? (Csv.tableBytes [header, padded 5 row])).map (·.get? "graphs") =
        some (some ⟨10, "", "Graphs", "", "graphs"⟩) := by
  decide +kernel

end VideoIndex

end LectureQuiz
