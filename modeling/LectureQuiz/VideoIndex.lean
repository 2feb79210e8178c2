import LectureQuiz.Csv
import LectureQuiz.Text.Blank
import LectureQuiz.Text.Digit
import LectureQuiz.Text.Slug
import LectureQuiz.Text.Utf8

/-!
# The video index

The index tells the title, course module, topic and address of each video. It is
read from a table whose header names the columns, and it resolves the name of a
transcript file to an entry, which it makes up when there is none.
-/

namespace LectureQuiz

open LectureQuiz.Text

structure VideoEntry where
  module : UInt32
  topic : String
  title : String
  url : String
  videoId : String
  deriving DecidableEq, Repr

/-- Entries by video id: no two entries have the same. -/
structure VideoIndex where
  entries : List VideoEntry
  distinct : (entries.map VideoEntry.videoId).Nodup

namespace VideoIndex

def empty : VideoIndex := ⟨[], .nil⟩

def get? (index : VideoIndex) (videoId : String) : Option VideoEntry :=
  index.entries.find? (·.videoId == videoId)

def size (index : VideoIndex) : Nat :=
  index.entries.length

/-- Adds an entry in place of the one with the same id. -/
def insert (index : VideoIndex) (entry : VideoEntry) : VideoIndex where
  entries := entry :: index.entries.filter (·.videoId != entry.videoId)
  distinct := by
    refine List.nodup_cons.2 ⟨?_, ?_⟩
    · simp
    · exact index.distinct.sublist (List.filter_sublist.map _)

/-- The index of a list of entries; of two with the same id the later counts. -/
def ofEntries (entries : List VideoEntry) : VideoIndex :=
  entries.foldl insert empty

/-- The columns that an entry is read from. -/
def columns : List String :=
  ["title", "module", "url", "topic", "video_id"]

/-- Whether every field of a record encodes text, and if so the trimmed texts. -/
def cells? (record : List (List UInt8)) : Option (List String) :=
  record.mapM fun field => (text? field.toByteArray).map trimmed

/-- Whether a row can be read under a header. No column may be named twice, and
the row may end early only where nothing but the video id is missing. -/
def isReadable (header cells : List String) : Bool :=
  (header.filter columns.contains).Nodup &&
    (header.drop cells.length).all (· == "video_id")

/-- The cell under a column name, or nothing where there is none. -/
def cell (header cells : List String) (column : String) : String :=
  ((header.zip cells).lookup column).getD ""

/-- The module number in a cell; what is no number counts as module zero. -/
def moduleOf (text : String) : UInt32 :=
  ((boundedDecimal? UInt32.size text.toList).getD 0).toUInt32

/-- The entry that a row gives. Its id is the slug of its title if it names
none. -/
def entryOfRow? (header cells : List String) : Option VideoEntry :=
  if isReadable header cells then
    let title := cell header cells "title"
    let videoId := cell header cells "video_id"
    some
      { module := moduleOf (cell header cells "module")
        topic := cell header cells "topic"
        title := title
        url := cell header cells "url"
        videoId := if videoId = "" then slug title else videoId }
  else
    none

/-- The index in the bytes of a table; rows that cannot be read are passed over,
a header that is not text is refused. -/
def ofCsv? (bytes : List UInt8) : Option VideoIndex :=
  match Csv.records bytes with
  | [] => some empty
  | header :: rows => do
      let names ← cells? header
      return ofEntries (rows.filterMap fun row => do
        let cells ← cells? row
        entryOfRow? names cells)

/-- How the name of a transcript file was matched. -/
inductive Resolution where
  /-- The name is a video id. -/
  | exact
  /-- The slug of the name is a video id. -/
  | bySlug
  /-- No entry matches, and one was made up. -/
  | synthetic
  deriving DecidableEq, Repr

/-- An entry of no course module for a name that the index does not know. -/
def syntheticEntry (title videoId : String) : VideoEntry :=
  ⟨0, "", title, "", videoId⟩

/-- The entry for the name of a transcript file. -/
def resolve (index : VideoIndex) (stem : String) : VideoEntry × Resolution :=
  match index.get? stem with
  | some entry => (entry, .exact)
  | none =>
      match index.get? (slug stem) with
      | some entry => (entry, .bySlug)
      | none =>
          let videoId := if slug stem = "" then stem else slug stem
          (syntheticEntry stem videoId, .synthetic)

end VideoIndex

end LectureQuiz
