import Mathlib.Data.Finset.Card
import LectureQuiz.Proofs.Csv
import LectureQuiz.Proofs.Text.Digit
import LectureQuiz.Proofs.VideoIndex.Resolution

/-!
# Indexes from tables

The columns of a table are told by their names, in any order and among others. A row
gives the entry of its trimmed fields under these names, and the last row with an id is
the one that is kept.
-/

namespace LectureQuiz

open LectureQuiz.Text

/-- The names of the columns, as they are read from the first line of a table. -/
def Csv.Line.names (header : Csv.Line) : List String :=
  header.withoutMark.fields.map trimmed

namespace VideoIndex

variable {header : Csv.Line} {rows : List Csv.Line} {names cells row : List String}
variable {text : String} {entry : VideoEntry}

theorem cells?_encoded (line : Csv.Line) :
    cells? line.encoded = some (line.fields.map trimmed) := by
  obtain ⟨fields, ending⟩ := line
  rw [cells?, Csv.Line.encoded]
  induction fields with
  | nil => rfl
  | cons first rest inductionHypothesis =>
      have isText : text? (encode first.toList).toByteArray = some first :=
        text?_toByteArray_eq_some_iff.2 rfl
      rw [List.map_cons, List.mapM_cons, inductionHypothesis, isText]
      rfl

/-- A table of plain lines is read row by row under the names of its first line. -/
theorem ofCsv?_tableBytes
    (headerPlain : header.withoutMark.IsPlain) (rowsPlain : ∀ row ∈ rows, row.IsPlain) :
    ofCsv? (Csv.tableBytes (header :: rows)) =
      some (ofEntries (rows.filterMap fun row =>
        entryOfRow? header.names (row.fields.map trimmed))) := by
  rw [ofCsv?, Csv.records_tableBytes headerPlain rowsPlain]
  simp only [cells?_encoded, List.filterMap_map, Function.comp_def, Option.bind_eq_bind,
    Option.bind_some]
  rfl

/-- The trimmed field of a row in the column with this name, or nothing if the table has
no such column. -/
def columnText (names row : List String) (column : String) : String :=
  match names.idxOf? column with
  | some place => trimmed (row.getD place "")
  | none => ""

theorem trimmed_empty : trimmed "" = "" := rfl

theorem cell_eq_columnText (names row : List String) (column : String) :
    cell names (row.map trimmed) column = columnText names row column := by
  rw [cell]
  induction names generalizing row with
  | nil => rfl
  | cons name others inductionHypothesis =>
      rw [columnText, List.idxOf?_cons]
      cases row with
      | nil =>
          split
          · exact trimmed_empty.symm
          · rfl
      | cons field fields =>
          rw [List.map_cons, List.zip_cons_cons, List.lookup_cons]
          by_cases same : column = name
          · simp [same]
          · have later := inductionHypothesis fields
            rw [columnText] at later
            have isOther : (column == name) = false := by simpa using same
            have otherName : ¬(name == column) = true := by simpa using Ne.symm same
            rw [isOther, if_neg otherName]
            dsimp only
            rw [later]
            cases others.idxOf? column <;> rfl

theorem toNat_moduleOf
    {value : Nat} (writes : WritesNumber text.toList value) (small : value < UInt32.size) :
    (moduleOf text).toNat = value := by
  rw [moduleOf, boundedDecimal?_eq_some_iff.2 ⟨writes, small⟩, Option.getD_some,
    Nat.toUInt32_eq, UInt32.toNat_ofNat_of_lt' small]

theorem moduleOf_eq_zero
    (noNumber : ∀ value, WritesNumber text.toList value → UInt32.size ≤ value) :
    moduleOf text = 0 := by
  have nothing : boundedDecimal? UInt32.size text.toList = none := by
    rw [Option.eq_none_iff_forall_ne_some]
    intro value isNumber
    obtain ⟨writes, small⟩ := boundedDecimal?_eq_some_iff.1 isNumber
    exact absurd (noNumber value writes) (Nat.not_le.2 small)
  rw [moduleOf, nothing]
  rfl

/-- The entry of a row: its texts are the fields under their names, its id is the slug of
the title if the row names none, and its module is zero unless the row gives a number of
32 bits. -/
structure IsEntryOf (names row : List String) (entry : VideoEntry) : Prop where
  title : entry.title = columnText names row "title"
  topic : entry.topic = columnText names row "topic"
  url : entry.url = columnText names row "url"
  videoId : entry.videoId =
    if columnText names row "video_id" = "" then slug (columnText names row "title")
    else columnText names row "video_id"
  number : ∀ value, WritesNumber (columnText names row "module").toList value →
    value < UInt32.size → entry.module.toNat = value
  noNumber : (∀ value, WritesNumber (columnText names row "module").toList value →
    UInt32.size ≤ value) → entry.module = 0

theorem exists_isEntryOf
    (readable : isReadable names (row.map trimmed) = true) :
    ∃ entry, entryOfRow? names (row.map trimmed) = some entry ∧
      IsEntryOf names row entry := by
  rw [entryOfRow?, if_pos readable]
  simp only [cell_eq_columnText]
  exact ⟨_, rfl, rfl, rfl, rfl, rfl, fun _ writes small => toNat_moduleOf writes small,
    moduleOf_eq_zero⟩

theorem isReadable_of_long
    (distinct : names.Nodup) (long : names.length ≤ cells.length) :
    isReadable names cells = true := by
  rw [isReadable, List.drop_eq_nil_of_le long, List.all_nil, Bool.and_true]
  exact decide_eq_true (distinct.filter _)

theorem exists_entries
    {fieldsOf : List (List String)}
    (readable : ∀ row ∈ fieldsOf, isReadable names (row.map trimmed) = true) :
    ∃ entries, List.Forall₂ (IsEntryOf names) fieldsOf entries ∧
      fieldsOf.filterMap (fun row => entryOfRow? names (row.map trimmed)) = entries := by
  induction fieldsOf with
  | nil => exact ⟨[], .nil, rfl⟩
  | cons row others inductionHypothesis =>
      rw [List.forall_mem_cons] at readable
      obtain ⟨entry, given, isEntry⟩ := exists_isEntryOf readable.1
      obtain ⟨entries, areEntries, filled⟩ := inductionHypothesis readable.2
      refine ⟨entry :: entries, .cons isEntry areEntries, ?_⟩
      simp only [List.filterMap_cons, given, filled]

theorem mem_ids_iff {index : VideoIndex} {id : String} :
    id ∈ index.entries.map VideoEntry.videoId ↔ index.get? id ≠ none := by
  rw [List.mem_map]
  constructor
  · rintro ⟨entry, member, rfl⟩
    rw [get?_videoId member]
    exact Option.some_ne_none entry
  · intro known
    obtain ⟨entry, found⟩ := Option.ne_none_iff_exists'.1 known
    exact ⟨entry, List.mem_of_find?_eq_some found, videoId_of_get? found⟩

theorem size_ofEntries (entries : List VideoEntry) :
    (ofEntries entries).size = (entries.map VideoEntry.videoId).toFinset.card := by
  have sameIds : ((ofEntries entries).entries.map VideoEntry.videoId).toFinset =
      (entries.map VideoEntry.videoId).toFinset := by
    ext id
    rw [List.mem_toFinset, List.mem_toFinset, mem_ids_iff, get?_ofEntries, Ne,
      List.getLast?_eq_none_iff, List.filter_eq_nil_iff]
    simp
  rw [size, ← sameIds, List.toFinset_card_of_nodup (ofEntries entries).distinct,
    List.length_map]

/-- A name of ASCII letters, digits and underscores. -/
def IsSimpleName (name : String) : Prop :=
  ∀ character ∈ name.toList, character.isAlphanum = true ∨ character = '_'

instance (name : String) : Decidable (IsSimpleName name) :=
  List.decidableBAll _ name.toList

/-- A header of two or more different simple names, one of them the title. -/
structure IsHeader (names : List String) : Prop where
  several : 2 ≤ names.length
  distinct : names.Nodup
  hasTitle : "title" ∈ names
  simple : ∀ name ∈ names, IsSimpleName name

theorem trimmed_of_simple {name : String} (simple : IsSimpleName name) :
    trimmed name = name := by
  have sameText : trim name.toList = name.toList :=
    trim_of_not_blank fun character member => isBlank_of_simple (simple character member)
  rw [trimmed, sameText, String.ofList_toList]

theorem IsHeader.withoutMark (isHeader : IsHeader header.fields) :
    header.withoutMark = header := by
  obtain ⟨fields, ending⟩ := header
  cases fields with
  | nil => rfl
  | cons first rest =>
      have unmarked : Csv.withoutMark first.toList = first.toList := by
        refine if_neg fun isMark => ?_
        have isSimple := isHeader.simple first List.mem_cons_self Csv.mark
          (List.mem_of_head? isMark)
        exact absurd isSimple (by decide)
      rw [Csv.Line.withoutMark]
      dsimp only
      rw [unmarked, String.ofList_toList]

theorem IsHeader.names_eq (isHeader : IsHeader header.fields) :
    header.names = header.fields := by
  have sameNames : ∀ name ∈ header.fields, trimmed name = name := fun name member =>
    trimmed_of_simple (isHeader.simple name member)
  rw [Csv.Line.names, isHeader.withoutMark, List.map_congr_left sameNames, List.map_id']

theorem isPlain_of_several
    {line : Csv.Line} (several : 2 ≤ line.fields.length)
    (plain : ∀ field ∈ line.fields, Csv.IsPlainField field) : line.IsPlain := by
  refine ⟨?_, ?_, plain⟩
  · intro isEmpty
    rw [isEmpty, List.length_nil] at several
    omega
  · intro isBlank
    rw [isBlank, List.length_singleton] at several
    omega

theorem IsHeader.isPlain (isHeader : IsHeader header.fields) : header.IsPlain := by
  refine isPlain_of_several isHeader.several fun name member character inName special => ?_
  rcases isHeader.simple name member character inName with isAlphanum | rfl
  · have noSpecial : [',', '"', '\n', '\r'].any Char.isAlphanum = false := by decide
    exact List.any_eq_false.1 noSpecial character special isAlphanum
  · exact absurd special (by decide)

/-- A table whose columns have simple names, in any order, and whose rows have a field for
each column is read completely. For each id the index has the entry of the last row with
this id, and its size is the number of ids that the rows have. -/
theorem ofCsv?_lastRows
    {header : Csv.Line} {rows : List Csv.Line} (isHeader : IsHeader header.fields)
    (plain : ∀ row ∈ rows, ∀ field ∈ row.fields, Csv.IsPlainField field)
    (long : ∀ row ∈ rows, header.fields.length ≤ row.fields.length) :
    ∃ (entries : List VideoEntry) (index : VideoIndex),
      List.Forall₂ (IsEntryOf header.fields) (rows.map Csv.Line.fields) entries ∧
      ofCsv? (Csv.tableBytes (header :: rows)) = some index ∧
      (∀ id, index.get? id = (entries.filter (·.videoId == id)).getLast?) ∧
      index.size = (entries.map VideoEntry.videoId).toFinset.card := by
  have headerPlain : header.withoutMark.IsPlain := by
    rw [isHeader.withoutMark]
    exact isHeader.isPlain
  have rowsPlain : ∀ row ∈ rows, row.IsPlain := fun row member =>
    isPlain_of_several (isHeader.several.trans (long row member)) (plain row member)
  have readable : ∀ fields ∈ rows.map Csv.Line.fields,
      isReadable header.fields (fields.map trimmed) = true := by
    intro fields member
    obtain ⟨row, inRows, rfl⟩ := List.mem_map.1 member
    refine isReadable_of_long isHeader.distinct ?_
    rw [List.length_map]
    exact long row inRows
  obtain ⟨entries, areEntries, filled⟩ := exists_entries readable
  rw [List.filterMap_map] at filled
  refine ⟨entries, ofEntries entries, areEntries, ?_, get?_ofEntries entries,
    size_ofEntries entries⟩
  rw [ofCsv?_tableBytes headerPlain rowsPlain, isHeader.names_eq, ← filled]
  rfl

theorem ofCsv?_lastRows_sample :
    let header : Csv.Line := ⟨["video_id", "module", "term", "title"], .returnFeed⟩
    let rows : List Csv.Line :=
      [⟨[" lec01", "six", "1", "Types"], .feed⟩,
        ⟨["lec01 ", "+8", "2", " Trees ", "over"], .returnFeed⟩]
    IsHeader header.fields ∧
      ∃ index : VideoIndex, ofCsv? (Csv.tableBytes (header :: rows)) = some index ∧
        ∃ entry, index.get? "lec01" = some entry ∧ entry.title = "Trees" ∧
          entry.module = 8 := by
  intro header rows
  have isHeader : IsHeader header.fields :=
    ⟨by decide, by decide, by decide, by decide⟩
  have plain : ∀ row ∈ rows, ∀ field ∈ row.fields, Csv.IsPlainField field := by decide
  obtain ⟨entries, index, areEntries, isRead, lookup, _⟩ :=
    ofCsv?_lastRows isHeader plain (by decide)
  obtain ⟨_, _, isFirst, others, rfl⟩ := List.forall₂_cons_left_iff.1 areEntries
  obtain ⟨last, _, isLast, nothing, rfl⟩ := List.forall₂_cons_left_iff.1 others
  obtain rfl := List.forall₂_nil_left_iff.1 nothing
  have firstId := isFirst.videoId.trans (show _ = "lec01" by decide +kernel)
  have lastId := isLast.videoId.trans (show _ = "lec01" by decide +kernel)
  refine ⟨isHeader, index, isRead, last, ?_, isLast.title.trans (by decide +kernel), ?_⟩
  · rw [lookup]
    simp [firstId, lastId]
  · have writes : WritesNumber
        (columnText header.fields (rows.map Csv.Line.fields)[1] "module").toList 8 :=
      ⟨['8'], Or.inr (by decide +kernel), by decide, by decide, by decide +kernel⟩
    exact UInt32.toNat_inj.1 (isLast.number 8 writes (by decide))

end VideoIndex

end LectureQuiz
