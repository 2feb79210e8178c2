import LectureQuiz.TagSet
import LectureQuiz.Json.Record
import LectureQuiz.Text.Blank
import LectureQuiz.Text.Quoted

/-!
# Quiz items

An item asks one question of a course module and knows the position of its right
answer among its choices. `Item.validate` says what makes an item fit for a quiz.
-/

namespace LectureQuiz

open LectureQuiz.Text

inductive ItemKind where
  | multipleChoice
  | trueFalse
  deriving DecidableEq, Repr

namespace ItemKind

def name : ItemKind → String
  | .multipleChoice => "mcq"
  | .trueFalse => "tf"

def ofName? (name : String) : Option ItemKind :=
  if name = "mcq" then some .multipleChoice
  else if name = "tf" then some .trueFalse
  else none

@[simp] theorem ofName?_name (kind : ItemKind) :
    ofName? kind.name = some kind := by
  cases kind <;> simp [ofName?, name]

end ItemKind

/-- Material that goes with an item. -/
structure Assets where
  diagram : Option String
  deriving DecidableEq, Repr

namespace Assets

def none : Assets := ⟨Option.none⟩

def toJson (assets : Assets) : Json :=
  .object [("diagram", Json.ofOptional .string assets.diagram)]

def ofJson? (value : Json) : Option Assets := do
  let fields ← value.fields? ["diagram"]
  let diagram ←
    fields.withDefault? "diagram" Option.none (Json.optional? Json.text?)
  return ⟨diagram⟩

end Assets

structure Item where
  id : String
  module : UInt32
  kind : ItemKind
  question : String
  choices : List String
  answerIndex : UInt64
  explanation : String
  tags : TagSet
  assets : Assets
  deriving DecidableEq, Repr

/-- The choices of every true-or-false item. -/
def trueFalseChoices : List String :=
  ["True", "False"]

/-- Why an item cannot be used. -/
inductive ItemFault where
  | emptyId
  | trueFalseChoices (id : String) (choices : List String)
  | trueFalseAnswer (id : String) (index : UInt64)
  | fewChoices (id : String) (count : Nat)
  | answerOutOfRange (id : String) (index : UInt64) (count : Nat)
  deriving DecidableEq, Repr

def ItemFault.message : ItemFault → String
  | .emptyId => "item id must not be empty"
  | .trueFalseChoices id choices =>
      s!"item '{id}': tf choices must be [\"True\", \"False\"], got " ++
        quotedList choices
  | .trueFalseAnswer id index =>
      s!"item '{id}': tf answer_index {index} out of range"
  | .fewChoices id count =>
      s!"item '{id}': mcq needs at least 2 choices, got {count}"
  | .answerOutOfRange id index count =>
      s!"item '{id}': answer_index {index} out of range for {count} choices"

namespace Item

/-- Refuses an item that cannot be shown or answered. -/
def validate (item : Item) : Except ItemFault Unit :=
  if isBlankText item.id then
    .error .emptyId
  else
    match item.kind with
    | .trueFalse =>
        if item.choices ≠ trueFalseChoices then
          .error (.trueFalseChoices item.id item.choices)
        else if 1 < item.answerIndex then
          .error (.trueFalseAnswer item.id item.answerIndex)
        else
          .ok ()
    | .multipleChoice =>
        if item.choices.length < 2 then
          .error (.fewChoices item.id item.choices.length)
        else if item.choices.length ≤ item.answerIndex.toNat then
          .error (.answerOutOfRange item.id item.answerIndex
            item.choices.length)
        else
          .ok ()

def isValid (item : Item) : Bool :=
  item.validate.isOk

/-- The right answer, if its position is one of a choice. -/
def answer? (item : Item) : Option String :=
  item.choices[item.answerIndex.toNat]?

def fieldNames : List String :=
  ["id", "module", "type", "question", "choices", "answer_index",
    "explanation", "tags", "assets"]

def toJson (item : Item) : Json :=
  .object
    [("id", .string item.id),
      ("module", Json.ofWord32 item.module),
      ("type", .string item.kind.name),
      ("question", .string item.question),
      ("choices", Json.ofTexts item.choices),
      ("answer_index", Json.ofWord64 item.answerIndex),
      ("explanation", .string item.explanation),
      ("tags", Json.ofTexts item.tags.toList),
      ("assets", item.assets.toJson)]

def ofJson? (value : Json) : Option Item := do
  let fields ← value.fields? fieldNames
  let id ← fields.required? "id" Json.text?
  let module ← fields.required? "module" Json.word32?
  let kind ← fields.required? "type" (Json.named? ItemKind.ofName?)
  let question ← fields.required? "question" Json.text?
  let choices ← fields.required? "choices" (Json.list? Json.text?)
  let answerIndex ← fields.required? "answer_index" Json.word64?
  let explanation ← fields.withDefault? "explanation" "" Json.text?
  let tags ← fields.withDefault? "tags" [] (Json.list? Json.text?)
  let assets ← fields.withDefault? "assets" Assets.none Assets.ofJson?
  return ⟨id, module, kind, question, choices, answerIndex, explanation,
    TagSet.ofList tags, assets⟩

end Item

end LectureQuiz
