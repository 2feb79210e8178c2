import LectureQuiz.Proofs.Json.Printable
import LectureQuiz.Proofs.Json.Record
import LectureQuiz.Proofs.Text.Pieces
import LectureQuiz.Records

namespace LectureQuiz

open LectureQuiz.Text

/-- A type of records that are objects with at least one member and are read back
from their written form. -/
class LawfulRecord (alpha : Type) [Record alpha] : Prop where
  readBack : ∀ record : alpha, Record.ofJson? (Record.toJson record) = some record
  plain : ∀ record : alpha, (Record.toJson record).isPlain = true
  object : ∀ record : alpha, ∃ members, Record.toJson record = .object members

namespace Segment

theorem ofJson?_toJson (segment : Segment) :
    ofJson? segment.toJson = some segment := by
  have time (given : Option UInt32) :
      Json.optional? Json.word32? (Json.ofOptional Json.ofWord32 given) =
        some given :=
    Json.optional?_ofOptional Json.word32?_ofWord32 (fun _ => nofun) given
  simp [ofJson?, toJson, Json.fields?, fieldNames, Fields.withDefault?,
    Fields.required?, List.lookup_cons, time]

theorem isPlain_toJson (segment : Segment) :
    segment.toJson.isPlain = true := by
  have time (given : Option UInt32) :
      (Json.ofOptional Json.ofWord32 given).isPlain = true :=
    Json.isPlain_ofOptional Json.isPlain_ofWord32 given
  simp [toJson, Json.isPlain, Json.plainMembers, time]

end Segment

instance : LawfulRecord Segment where
  readBack := Segment.ofJson?_toJson
  plain := Segment.isPlain_toJson
  object := fun _ => ⟨_, rfl⟩

namespace TagSet

theorem insertSorted_of_forall_lt
    {tag : String} {tags : List String} (least : ∀ member ∈ tags, tag < member) :
    insertSorted tag tags = tag :: tags := by
  cases tags with
  | nil => rfl
  | cons first rest =>
      rw [insertSorted, if_pos (least first List.mem_cons_self)]

theorem toList_ofList_of_increasing
    {tags : List String} (increasing : tags.Pairwise (· < ·)) :
    (ofList tags).toList = tags := by
  induction tags with
  | nil => rfl
  | cons first rest inductionHypothesis =>
      have ⟨least, restIncreasing⟩ := List.pairwise_cons.1 increasing
      change insertSorted first (ofList rest).toList = first :: rest
      rw [inductionHypothesis restIncreasing]
      exact insertSorted_of_forall_lt least

@[simp] theorem ofList_toList (tags : TagSet) : ofList tags.toList = tags :=
  ext_toList (toList_ofList_of_increasing tags.increasing)

end TagSet

namespace Assets

theorem ofJson?_toJson (assets : Assets) :
    ofJson? assets.toJson = some assets := by
  have diagram := Json.optional?_ofOptional Json.text?_string (fun _ => nofun)
    assets.diagram
  simp [ofJson?, toJson, Json.fields?, Fields.withDefault?, diagram]

end Assets

namespace Item

theorem ofJson?_toJson (item : Item) : ofJson? item.toJson = some item := by
  have kind : Json.named? ItemKind.ofName? (.string item.kind.name) =
      some item.kind := ItemKind.ofName?_name item.kind
  simp [ofJson?, toJson, Json.fields?, fieldNames, Fields.withDefault?,
    Fields.required?, List.lookup_cons, kind, Assets.ofJson?_toJson]

theorem isPlain_toJson (item : Item) : item.toJson.isPlain = true := by
  have diagram : (Json.ofOptional Json.string item.assets.diagram).isPlain =
      true := Json.isPlain_ofOptional Json.isPlain_string item.assets.diagram
  simp [toJson, Assets.toJson, Json.isPlain, Json.plainMembers, diagram]

end Item

instance : LawfulRecord Item where
  readBack := Item.ofJson?_toJson
  plain := Item.isPlain_toJson
  object := fun _ => ⟨_, rfl⟩

namespace Records

variable {alpha : Type} [Record alpha] [LawfulRecord alpha]

/-- The line of a record without its line feed. -/
abbrev recordLine (record : alpha) : List Char :=
  Json.compactChars (Record.toJson record)

omit [LawfulRecord alpha] in
theorem render_toList (records : List alpha) :
    (render records).toList = records.flatMap encodeLine := by
  simp [render]

theorem control_not_mem_recordLine
    (record : alpha) {control : Char} (small : control.toNat < 0x20) :
    control ∉ recordLine record :=
  (Json.printable_compactChars _ (LawfulRecord.plain record)).not_mem small

/-- An object is written between braces, so trimming leaves it as it is. -/
theorem trim_recordLine (record : alpha) :
    trim (recordLine record) = recordLine record := by
  obtain ⟨members, isObject⟩ := LawfulRecord.object record
  obtain ⟨inner, line⟩ : ∃ inner,
      recordLine record = '\x7b' :: (inner ++ ['\x7d']) := by
    rw [recordLine, isObject]
    exact ⟨_, rfl⟩
  have opening : isBlank '\x7b' = false := by decide
  have closing : isBlank '\x7d' = false := by decide
  simp [line, trim, strip, dropTrailing, opening, closing]

theorem lines_render (records : List alpha) :
    lines (render records).toList = records.map recordLine := by
  rw [render_toList]
  induction records with
  | nil => rfl
  | cons first rest inductionHypothesis =>
      rw [List.flatMap_cons, encodeLine, List.append_assoc,
        List.singleton_append, lines_append_feed_of_not_mem,
        inductionHypothesis, dropReturn_of_not_mem]
      · rfl
      · exact control_not_mem_recordLine first (by decide)
      · exact control_not_mem_recordLine first (by decide)

theorem contentLines_render (records : List alpha) :
    contentLines (render records) = records.map recordLine := by
  have trimmed : (records.map recordLine).map trim = records.map recordLine := by
    rw [List.map_map]
    exact List.map_congr_left fun record _ => trim_recordLine record
  rw [contentLines, lines_render, trimmed, List.filter_eq_self]
  intro line member
  obtain ⟨record, _, rfl⟩ := List.mem_map.1 member
  obtain ⟨members, isObject⟩ := LawfulRecord.object record
  rw [decide_eq_true_eq, recordLine, isObject]
  exact nofun

theorem decodeLine?_recordLine (record : alpha) :
    decodeLine? alpha (recordLine record) = some record := by
  rw [decodeLine?, Json.parse?_compactChars (LawfulRecord.plain record)]
  exact LawfulRecord.readBack record

theorem parse_render (records : List alpha) :
    parse (render records) = ⟨records, 0⟩ := by
  have decoded : (records.map recordLine).map (decodeLine? alpha) =
      records.map some := by
    rw [List.map_map]
    exact List.map_congr_left fun record _ => decodeLine?_recordLine record
  rw [parse, contentLines_render, decoded]
  simp [List.filterMap_map, List.countP_map]

omit [LawfulRecord alpha] in
/-- The content has one line for each of the records, each with a line feed at its
end and nowhere else, and is read as these records with no line passed over. -/
structure Stores (content : String) (records : List alpha) : Prop where
  lines : ∃ written : List (List Char), written.length = records.length ∧
    (∀ line ∈ written, '\n' ∉ line) ∧
    content.toList = written.flatMap (· ++ ['\n'])
  parsed : parse content = ⟨records, 0⟩

theorem stores_render (records : List alpha) : Stores (render records) records where
  lines := by
    refine ⟨records.map recordLine, List.length_map _, ?_, ?_⟩
    · intro line member
      obtain ⟨record, _, rfl⟩ := List.mem_map.1 member
      exact control_not_mem_recordLine record (by decide)
    · rw [render_toList, List.flatMap_map]
      rfl
  parsed := parse_render records

/-- The files of segments and of items store them, whatever they hold. So what was
read from a file is not changed by writing it and reading it again. -/
theorem stores_segments_and_items :
    (∀ segments : List Segment, Stores (render segments) segments) ∧
      (∀ items : List Item, Stores (render items) items) ∧
      ∀ content : String,
        parse (render (parse content : Records Segment).records) =
            ⟨(parse content : Records Segment).records, 0⟩ ∧
          parse (render (parse content : Records Item).records) =
            ⟨(parse content : Records Item).records, 0⟩ := by
  refine ⟨stores_render, stores_render, ?_⟩
  intro content
  exact ⟨parse_render _, parse_render _⟩

end Records

end LectureQuiz
