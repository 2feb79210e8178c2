import Mathlib.Data.List.Nodup
import Mathlib.Data.List.Sort
import Mathlib.Data.String.Basic
import LectureQuiz.Proofs.Records
import LectureQuiz.Proofs.Records.Lines

/-!
# Records edited by hand

A line that was edited by hand may name the fields of a record in any order, leave out
those that have their default, give the tags in any order and more than once, and have
blanks and members of other names anywhere. Every such line is read as the record, and is
written again in the one form that records are written in.
-/

namespace LectureQuiz

open LectureQuiz.Text

/-- How a field of a record may be given by hand. -/
structure FieldForm where
  name : String
  /-- The values that stand for what the record holds. -/
  Holds : Json → Prop
  /-- Whether the field may be left out. -/
  Omissible : Prop

namespace FieldForm

/-- The members have the field exactly once, or not at all where it may be left out. -/
inductive GivenBy (form : FieldForm) (members : Fields Json) : Prop
  | once {value : Json} :
      form.Holds value → members.filter (·.1 = form.name) = [(form.name, value)] →
      form.GivenBy members
  | never : form.Omissible → members.filter (·.1 = form.name) = [] → form.GivenBy members

variable {form : FieldForm} {members fields : Fields Json} {names : List String}

/-- Members of other names are passed over. -/
theorem GivenBy.filter
    (given : form.GivenBy members) (known : form.name ∈ names) :
    form.GivenBy (members.filter (names.contains ·.1)) := by
  have same : (members.filter (names.contains ·.1)).filter (·.1 = form.name) =
      members.filter (·.1 = form.name) := by
    rw [List.filter_filter]
    apply List.filter_congr
    intro member _
    by_cases isField : member.1 = form.name
    · simp [isField, known]
    · simp [isField]
  cases given with
  | once holds single => exact .once holds (same.trans single)
  | never omissible absent => exact .never omissible (same.trans absent)

theorem GivenBy.length_le_one (given : form.GivenBy members) :
    (members.filter (·.1 = form.name)).length ≤ 1 := by
  cases given with
  | once _ single => simp [single]
  | never _ absent => simp [absent]

theorem lookup_eq_head?_filter (members : Fields Json) (name : String) :
    members.lookup name = (members.filter (·.1 = name)).head?.map Prod.snd := by
  induction members with
  | nil => rfl
  | cons member rest inductionHypothesis =>
      rw [List.lookup_cons, List.filter_cons]
      by_cases isName : member.1 = name
      · simp [isName]
      · have notName : (name == member.1) = false := by simpa using Ne.symm isName
        simp [isName, notName, inductionHypothesis]

theorem GivenBy.lookup (given : form.GivenBy fields) :
    (∃ value, form.Holds value ∧ fields.lookup form.name = some value) ∨
      (form.Omissible ∧ fields.lookup form.name = none) := by
  cases given with
  | once holds single =>
      exact Or.inl ⟨_, holds, by rw [lookup_eq_head?_filter, single]; rfl⟩
  | never omissible absent =>
      exact Or.inr ⟨omissible, by rw [lookup_eq_head?_filter, absent]; rfl⟩

variable {result : Type} {read : Json → Option result} {held : result}

theorem GivenBy.required?_eq
    (given : form.GivenBy fields) (needed : ¬form.Omissible)
    (reads : ∀ value, form.Holds value → read value = some held) :
    fields.required? form.name read = some held := by
  rcases given.lookup with ⟨value, holds, found⟩ | ⟨omissible, _⟩
  · rw [Fields.required?, found]
    exact reads value holds
  · exact absurd omissible needed

/-- What is read for a field with a default is good when the default and what every value
is read as are. -/
theorem GivenBy.exists_withDefault?
    (given : form.GivenBy fields) {default : result} {good : result → Prop}
    (absent : form.Omissible → good default)
    (reads : ∀ value, form.Holds value → ∃ got, read value = some got ∧ good got) :
    ∃ got, fields.withDefault? form.name default read = some got ∧ good got := by
  rcases given.lookup with ⟨value, holds, found⟩ | ⟨omissible, missing⟩
  · rw [Fields.withDefault?, found]
    exact reads value holds
  · rw [Fields.withDefault?, missing]
    exact ⟨default, rfl, absent omissible⟩

theorem GivenBy.withDefault?_eq
    (given : form.GivenBy fields) {default : result}
    (absent : form.Omissible → default = held)
    (reads : ∀ value, form.Holds value → read value = some held) :
    fields.withDefault? form.name default read = some held := by
  obtain ⟨_, found, rfl⟩ : ∃ got, fields.withDefault? form.name default read = some got ∧
      got = held :=
    given.exists_withDefault? absent fun value holds => ⟨held, reads value holds, rfl⟩
  exact found

/-- The value is an object that gives all the fields. Its other members may have any names
and hold anything. -/
def Gives (forms : List FieldForm) (value : Json) : Prop :=
  ∃ members, value = .object members ∧ ∀ form ∈ forms, form.GivenBy members

theorem nodup_names
    {forms : List FieldForm} (given : ∀ form ∈ forms, form.GivenBy members) :
    ((members.filter ((forms.map name).contains ·.1)).map Prod.fst).Nodup := by
  rw [List.nodup_iff_count_le_one]
  intro name
  rw [List.count, List.countP_map, List.countP_filter, List.countP_eq_length_filter]
  by_cases isField : name ∈ forms.map FieldForm.name
  · obtain ⟨form, member, rfl⟩ := List.mem_map.1 isField
    refine Nat.le_trans (List.Sublist.length_le ?_) (given form member).length_le_one
    apply List.monotone_filter_right
    intro other
    simp only [Function.comp_apply, Bool.and_eq_true, beq_iff_eq, decide_eq_true_eq]
    exact And.left
  · have nothing : (members.filter fun member =>
        ((· == name) ∘ Prod.fst) member && (forms.map FieldForm.name).contains member.1) =
          [] := by
      rw [List.filter_eq_nil_iff]
      intro member _
      simp only [Function.comp_apply, Bool.and_eq_true, beq_iff_eq, List.contains_iff_mem]
      rintro ⟨rfl, known⟩
      exact isField known
    rw [nothing]
    exact Nat.zero_le 1

/-- The fields that are read from such an object are those it gives. -/
theorem Gives.fields?_eq
    {forms : List FieldForm} {value : Json} (gives : Gives forms value) :
    ∃ fields, value.fields? (forms.map name) = some fields ∧
      ∀ form ∈ forms, form.GivenBy fields := by
  obtain ⟨members, rfl, given⟩ := gives
  refine ⟨members.filter ((forms.map name).contains ·.1), ?_, ?_⟩
  · rw [Json.fields?]
    exact if_pos (nodup_names given)
  · intro form member
    exact (given form member).filter (List.mem_map_of_mem member)

end FieldForm

namespace Segment

/-- A time that the transcript does not tell is `null` or left out. -/
def forms (segment : Segment) : List FieldForm :=
  [⟨"video_id", (· = .string segment.videoId), False⟩,
    ⟨"module", (· = .natural segment.module.toNat), segment.module = 0⟩,
    ⟨"start", (· = Json.ofOptional Json.ofWord32 segment.start), segment.start = none⟩,
    ⟨"end", (· = Json.ofOptional Json.ofWord32 segment.finish), segment.finish = none⟩,
    ⟨"text", (· = .string segment.text), False⟩]

theorem ofJson?_of_gives
    {segment : Segment} {value : Json} (gives : FieldForm.Gives segment.forms value) :
    ofJson? value = some segment := by
  obtain ⟨fields, isObject, given⟩ := gives.fields?_eq
  simp only [forms, List.forall_mem_cons] at given
  obtain ⟨videoId, module, start, finish, text, _⟩ := given
  have optional (time : Option UInt32) :
      Json.optional? Json.word32? (Json.ofOptional Json.ofWord32 time) = some time :=
    Json.optional?_ofOptional Json.word32?_ofWord32 (fun _ => nofun) time
  have videoId : fields.required? "video_id" Json.text? = some segment.videoId :=
    videoId.required?_eq id (by rintro _ rfl; rfl)
  have module : fields.withDefault? "module" 0 Json.word32? = some segment.module :=
    module.withDefault?_eq Eq.symm (by rintro _ rfl; exact Json.word32?_ofWord32 _)
  have start : fields.withDefault? "start" none (Json.optional? Json.word32?) =
      some segment.start :=
    start.withDefault?_eq Eq.symm (by rintro _ rfl; exact optional _)
  have finish : fields.withDefault? "end" none (Json.optional? Json.word32?) =
      some segment.finish :=
    finish.withDefault?_eq Eq.symm (by rintro _ rfl; exact optional _)
  have text : fields.required? "text" Json.text? = some segment.text :=
    text.required?_eq id (by rintro _ rfl; rfl)
  have isObject : value.fields? fieldNames = some fields := isObject
  simp [ofJson?, isObject, videoId, module, start, finish, text]

end Segment

namespace TagSet

theorem ofList_eq_iff {tags : List String} {set : TagSet} :
    ofList tags = set ↔ ∀ tag, tag ∈ tags ↔ tag ∈ set.toList := by
  constructor
  · rintro rfl tag
    exact mem_ofList.symm
  · intro same
    apply ext_toList
    apply (ofList tags).increasing.eq_of_mem_iff set.increasing
    intro tag
    rw [mem_ofList, same]

end TagSet

namespace Assets

def forms (assets : Assets) : List FieldForm :=
  [⟨"diagram", (· = Json.ofOptional .string assets.diagram), assets.diagram = Option.none⟩]

theorem ofJson?_of_gives
    {assets : Assets} {value : Json} (gives : FieldForm.Gives assets.forms value) :
    ofJson? value = some assets := by
  obtain ⟨fields, isObject, given⟩ := gives.fields?_eq
  simp only [forms, List.forall_mem_cons] at given
  obtain ⟨diagram, _⟩ := given
  have diagram : fields.withDefault? "diagram" Option.none (Json.optional? Json.text?) =
      some assets.diagram := by
    apply diagram.withDefault?_eq Eq.symm
    rintro _ rfl
    exact Json.optional?_ofOptional Json.text?_string (fun _ => nofun) assets.diagram
  have isObject : value.fields? ["diagram"] = some fields := isObject
  simp [ofJson?, isObject, diagram]

end Assets

namespace Item

/-- The tags are listed in any order, each at least once. -/
def forms (item : Item) : List FieldForm :=
  [⟨"id", (· = .string item.id), False⟩,
    ⟨"module", (· = .natural item.module.toNat), False⟩,
    ⟨"type", (· = .string item.kind.name), False⟩,
    ⟨"question", (· = .string item.question), False⟩,
    ⟨"choices", (· = .array (item.choices.map .string)), False⟩,
    ⟨"answer_index", (· = .natural item.answerIndex.toNat), False⟩,
    ⟨"explanation", (· = .string item.explanation), item.explanation = ""⟩,
    ⟨"tags", fun value => ∃ tags : List String, value = .array (tags.map .string) ∧
        ∀ tag, tag ∈ tags ↔ tag ∈ item.tags.toList, item.tags = TagSet.empty⟩,
    ⟨"assets", FieldForm.Gives item.assets.forms, item.assets = Assets.none⟩]

theorem ofJson?_of_gives
    {item : Item} {value : Json} (gives : FieldForm.Gives item.forms value) :
    ofJson? value = some item := by
  obtain ⟨fields, isObject, given⟩ := gives.fields?_eq
  simp only [forms, List.forall_mem_cons] at given
  obtain ⟨id, module, kind, question, choices, answerIndex, explanation, tags, assets, _⟩ :=
    given
  have id : fields.required? "id" Json.text? = some item.id :=
    id.required?_eq (fun no => no) (by rintro _ rfl; rfl)
  have module : fields.required? "module" Json.word32? = some item.module :=
    module.required?_eq (fun no => no) (by rintro _ rfl; exact Json.word32?_ofWord32 _)
  have kind : fields.required? "type" (Json.named? ItemKind.ofName?) = some item.kind :=
    kind.required?_eq (fun no => no) (by rintro _ rfl; exact ItemKind.ofName?_name _)
  have question : fields.required? "question" Json.text? = some item.question :=
    question.required?_eq (fun no => no) (by rintro _ rfl; rfl)
  have choices : fields.required? "choices" (Json.list? Json.text?) = some item.choices :=
    choices.required?_eq (fun no => no) (by rintro _ rfl; exact Json.list?_ofTexts _)
  have answerIndex : fields.required? "answer_index" Json.word64? = some item.answerIndex :=
    answerIndex.required?_eq (fun no => no) (by rintro _ rfl; exact Json.word64?_ofWord64 _)
  have explanation : fields.withDefault? "explanation" "" Json.text? =
      some item.explanation :=
    explanation.withDefault?_eq Eq.symm (by rintro _ rfl; rfl)
  obtain ⟨listed, tags, sameTags⟩ : ∃ listed,
      fields.withDefault? "tags" [] (Json.list? Json.text?) = some listed ∧
        TagSet.ofList listed = item.tags := by
    refine tags.exists_withDefault? (fun noTags => noTags.symm) ?_
    rintro _ ⟨listed, rfl, sameMembers⟩
    exact ⟨listed, Json.list?_ofTexts listed, TagSet.ofList_eq_iff.2 sameMembers⟩
  have assets : fields.withDefault? "assets" Assets.none Assets.ofJson? =
      some item.assets :=
    assets.withDefault?_eq Eq.symm fun _ => Assets.ofJson?_of_gives
  have isObject : value.fields? fieldNames = some fields := isObject
  simp [ofJson?, isObject, id, module, kind, question, choices, answerIndex, explanation,
    tags, sameTags, assets]

end Item

/-! ## Edited lines -/

/-- The line spells an object that gives the fields, in one of the ways that the format
allows, and nothing else. -/
structure IsEdited (forms : List FieldForm) (line : List Char) : Prop where
  spells : ∃ value before text after, FieldForm.Gives forms value ∧ Json.Spelled value text ∧
    Json.Spaces before ∧ Json.Spaces after ∧ line = before ++ (text ++ after)
  single : '\n' ∉ line

namespace Json

theorem isBlank_of_isSpace {character : Char} (space : isSpace character = true) :
    isBlank character = true := by
  simp only [isSpace, Bool.or_eq_true, beq_iff_eq] at space
  rcases space with ((rfl | rfl) | rfl) | rfl <;> decide

/-- An object is spelled between braces, so nothing of it is trimmed. -/
theorem Spelled.trim_object
    {members : List (String × Json)} {text : List Char}
    (spelled : Spelled (.object members) text) : trim text = text := by
  obtain ⟨inner, rfl⟩ : ∃ inner, text = '\x7b' :: (inner ++ ['\x7d']) := by
    generalize isObject : Json.object members = value at spelled
    cases spelled with
    | noMembers _ => exact ⟨_, rfl⟩
    | object _ => exact ⟨_, rfl⟩
    | number isNumber => cases isNumber <;> cases isObject
    | _ => cases isObject
  apply strip_of_ends
  · intro character isHead
    obtain rfl : '\x7b' = character := by simpa using isHead
    decide
  · intro character isLast
    rw [← List.cons_append, List.getLast?_append] at isLast
    obtain rfl : '\x7d' = character := by simpa using isLast
    decide

end Json

namespace Records

variable {alpha : Type} [Record alpha]

theorem parse_of_isEdited
    {record : alpha} {forms : List FieldForm}
    (readBack : ∀ value, FieldForm.Gives forms value → Record.ofJson? value = some record)
    {line : List Char} (edited : IsEdited forms line) :
    (parse (String.ofList line) : Records alpha) = ⟨[record], 0⟩ := by
  obtain ⟨value, before, text, after, gives, spelled, spacesBefore, spacesAfter, whole⟩ :=
    edited.spells
  have trimmed : trim line = text := by
    obtain ⟨members, rfl, _⟩ := gives
    rw [whole, trim, strip_of_all _ (fun _ member => Json.isBlank_of_isSpace
      (spacesBefore _ member)) fun _ member => Json.isBlank_of_isSpace (spacesAfter _ member)]
    exact spelled.trim_object
  have decoded : decodeLine? alpha text = some record := by
    have read := Json.parse?_spelled Json.spaces_nil spelled Json.spaces_nil
    rw [List.nil_append, List.append_nil] at read
    rw [decodeLine?, read]
    exact readBack value gives
  have notEmpty : text ≠ [] := by
    obtain ⟨first, rest, rfl, _⟩ := spelled.head
    exact List.cons_ne_nil first rest
  rw [parse_of_line edited.single, ofLine, trimmed, if_neg notEmpty, decoded]

/-- However a segment or an item is given by hand, it is read as itself, and what was read
is written as the record is. -/
theorem parse_handEdited :
    (∀ (segment : Segment) (line : List Char), IsEdited segment.forms line →
        (parse (String.ofList line) : Records Segment) = ⟨[segment], 0⟩ ∧
          render (parse (String.ofList line) : Records Segment).records =
            render [segment]) ∧
      ∀ (item : Item) (line : List Char), IsEdited item.forms line →
        (parse (String.ofList line) : Records Item) = ⟨[item], 0⟩ ∧
          render (parse (String.ofList line) : Records Item).records = render [item] := by
  constructor
  · intro segment line edited
    have parsed : (parse (String.ofList line) : Records Segment) = ⟨[segment], 0⟩ :=
      parse_of_isEdited (fun _ => Segment.ofJson?_of_gives) edited
    exact ⟨parsed, by rw [parsed]⟩
  · intro item line edited
    have parsed : (parse (String.ofList line) : Records Item) = ⟨[item], 0⟩ :=
      parse_of_isEdited (fun _ => Item.ofJson?_of_gives) edited
    exact ⟨parsed, by rw [parsed]⟩

end Records

def lateSegment : Segment := ⟨"v", 0, none, some 90, "t"⟩

def lateSegmentLine : List Char :=
  " \x7b\"text\":\"t\",\"end\":90,\"video_id\":\"v\"\x7d\t\r".toList

theorem isEdited_lateSegmentLine : IsEdited lateSegment.forms lateSegmentLine where
  single := by decide
  spells := by
    have written := Json.written_compactChars
      (.object [("text", .string "t"), ("end", .natural 90), ("video_id", .string "v")]) rfl
    refine ⟨_, [' '], _, ['\t', '\r'], ⟨_, rfl, ?_⟩, written.spelled, by decide, by decide,
      by decide⟩
    simp only [Segment.forms, List.forall_mem_cons]
    exact ⟨.once rfl rfl, .never rfl rfl, .never rfl rfl, .once rfl rfl, .once rfl rfl,
      List.forall_mem_nil _⟩

def taggedItem : Item :=
  ⟨"q1", 6, .multipleChoice, "Q", ["a", "b"], 1, "", TagSet.ofList ["x", "y"], .none⟩

/-- A note that no record has, with a string that denotes no text. -/
def taggedItemNote : Json :=
  .object [("by", .array [.numeral "-1.5E3", .unreadable])]

def taggedItemMembers : List (String × Json) :=
  [("tags", .array [.string "y", .string "x", .string "y"]), ("note", taggedItemNote),
    ("answer_index", .natural 1), ("choices", .array [.string "a", .string "b"]),
    ("question", .string "Q"), ("type", .string "mcq"), ("module", .natural 6),
    ("id", .string "q1")]

def taggedItemLine : List Char :=
  ("\x7b \"tags\" : [\"y\",\"x\", \"y\"],\"note\":\x7b\"by\":[-1.5E3,\"\\uD800\"]\x7d," ++
    "\"answer_index\":1,\"choices\":[\"a\",\"b\"],\"question\":\"Q\",\"type\":\"mcq\"," ++
    "\"module\":6,\"id\":\"q1\"\x7d").toList

theorem spelled_taggedItemNote :
    Json.Spelled taggedItemNote "\x7b\"by\":[-1.5E3,\"\\uD800\"]\x7d".toList := by
  have number : Json.IsNumber (.numeral "-1.5E3") "-1.5E3".toList :=
    @Json.IsNumber.numeral ['-'] ['1'] ['.', '5'] ['E', '3'] (Or.inr rfl)
      (.digits (by decide) (Json.isDigits_singleton rfl)) (.given (Json.isDigits_singleton rfl))
      (@Json.IsExponent.given 'E' [] ['3'] (Or.inr rfl) (Or.inl rfl)
        (Json.isDigits_singleton rfl))
      (by decide)
  have lonely : Json.Quoted none "\"\\uD800\"".toList :=
    .intro (.unit (by decide) .done : Json.IsLiteral [.unit 0xD800] "\\uD800".toList)
  have values : Json.Spelled (.array [.numeral "-1.5E3", .unreadable])
      "[-1.5E3,\"\\uD800\"]".toList :=
    .array (.more Json.spaces_nil (.number number) Json.spaces_nil
      (.last Json.spaces_nil (.unreadable lonely) Json.spaces_nil))
  have member := Json.SpelledMembers.last (.intro Json.spaces_nil
    (Json.quoted_writeString "by") Json.spaces_nil Json.spaces_nil values Json.spaces_nil)
  exact @Json.spelled_object [("by", .array [.numeral "-1.5E3", .unreadable])] _ member

theorem spelled_taggedItemLine : Json.Spelled (.object taggedItemMembers) taggedItemLine := by
  have space : Json.Spaces [' '] := by decide
  have tags : Json.Spelled (.array [.string "y", .string "x", .string "y"])
      "[\"y\",\"x\", \"y\"]".toList :=
    .array (.more Json.spaces_nil (.string (Json.quoted_writeString "y")) Json.spaces_nil
      (.more Json.spaces_nil (.string (Json.quoted_writeString "x")) Json.spaces_nil
        (.last space (.string (Json.quoted_writeString "y")) Json.spaces_nil)))
  have others := (Json.written_compactMembers (taggedItemMembers.drop 2) rfl
    (List.cons_ne_nil _ _)).spelled
  have noted := Json.SpelledMembers.more
    (.intro Json.spaces_nil (Json.quoted_writeString "note") Json.spaces_nil Json.spaces_nil
      spelled_taggedItemNote Json.spaces_nil) others
  have tagged := Json.SpelledMembers.more
    (.intro space (Json.quoted_writeString "tags") space space tags Json.spaces_nil) noted
  obtain ⟨text, spelled, isLine⟩ : ∃ text,
      Json.Spelled (.object taggedItemMembers) text ∧ text = taggedItemLine :=
    ⟨_, @Json.spelled_object taggedItemMembers _ tagged, by decide +kernel⟩
  rw [← isLine]
  exact spelled

theorem isEdited_taggedItemLine : IsEdited taggedItem.forms taggedItemLine where
  single := by decide +kernel
  spells := by
    refine ⟨_, [], _, [], ⟨_, rfl, ?_⟩, spelled_taggedItemLine, Json.spaces_nil,
      Json.spaces_nil, by simp⟩
    simp only [Item.forms, List.forall_mem_cons]
    refine ⟨.once rfl rfl, .once rfl rfl, .once rfl rfl, .once rfl rfl, .once rfl rfl,
      .once rfl rfl, .never rfl rfl, .once ⟨["y", "x", "y"], rfl, ?_⟩ rfl, .never rfl rfl,
      List.forall_mem_nil _⟩
    intro tag
    rw [taggedItem, TagSet.mem_ofList]
    simp only [List.mem_cons]
    grind

namespace Records

/-- Tags twice, fields out of order or left out, blanks, and a member that is no field. -/
theorem parse_handEdited_sample :
    (IsEdited lateSegment.forms lateSegmentLine ∧
        (parse (String.ofList lateSegmentLine) : Records Segment) = ⟨[lateSegment], 0⟩ ∧
        render (parse (String.ofList lateSegmentLine) : Records Segment).records =
          render [lateSegment]) ∧
      IsEdited taggedItem.forms taggedItemLine ∧
      (parse (String.ofList taggedItemLine) : Records Item) = ⟨[taggedItem], 0⟩ ∧
      render (parse (String.ofList taggedItemLine) : Records Item).records =
        render [taggedItem] :=
  ⟨⟨isEdited_lateSegmentLine, parse_handEdited.1 _ _ isEdited_lateSegmentLine⟩,
    isEdited_taggedItemLine, parse_handEdited.2 _ _ isEdited_taggedItemLine⟩

end Records

end LectureQuiz
