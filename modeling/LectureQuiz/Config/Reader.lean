import LectureQuiz.Config
import LectureQuiz.Toml.Reader
import LectureQuiz.Toml.Record

/-!
# Reading configurations

A configuration is a TOML document. What it does not give has its default, and
keys without a meaning are passed over.
-/

namespace LectureQuiz

open Toml

namespace AnswerTemplate

/-- The template with a name, from the fields that it declares. -/
def ofFields?
    (name : String) (given : List String → Option (Fields Toml)) :
    Option AnswerTemplate :=
  if name = "tf" then do
    let fields ← given ["answer"]
    let answer ← fields.required? "answer" boolean?
    return .trueFalse answer
  else if name = "mcq" then do
    let fields ← given ["choices", "correct"]
    let choices ← fields.required? "choices" (list? text?)
    let correct ← fields.required? "correct" word64?
    return .multipleChoice choices correct
  else
    none

/-- A template is a table that gives its name as `type`, or an array of its name
and exactly the fields that it declares. -/
def ofToml? : Toml → Option AnswerTemplate
  | .table entries => do
      let name ← Fields.required? entries "type" text?
      ofFields? name fun _ => some entries
  | .array (first :: elements) => do
      let name ← text? first
      ofFields? name fun names =>
        if elements.length ≤ names.length then some (names.zip elements)
        else none
  | _ => none

end AnswerTemplate

namespace Rule

def fieldNames : List String :=
  ["module", "tag", "keywords", "question", "answer", "explanation", "tags"]

def ofToml? (value : Toml) : Option Rule := do
  let fields ← value.fields? fieldNames
  let module ← fields.required? "module" word32?
  let tag ← fields.required? "tag" text?
  let keywords ← fields.required? "keywords" (list? text?)
  let question ← fields.required? "question" text?
  let answer ← fields.required? "answer" AnswerTemplate.ofToml?
  let explanation ← fields.withDefault? "explanation" "" text?
  let tags ← fields.withDefault? "tags" [] (list? text?)
  return ⟨module, tag, keywords, question, answer, explanation, tags⟩

end Rule

/-- The path that a value gives. -/
def Path.ofToml? (value : Toml) : Option Path :=
  (text? value).map Path.mk

namespace Paths

def fieldNames : List String :=
  ["index", "placeholders", "transcripts", "segments", "draft_bank",
    "final_bank", "qbank"]

def ofToml? (value : Toml) : Option Paths := do
  let default : Paths := {}
  let fields ← value.fields? fieldNames
  let index ← fields.withDefault? "index" default.index Path.ofToml?
  let placeholders ←
    fields.withDefault? "placeholders" default.placeholders Path.ofToml?
  let transcripts ←
    fields.withDefault? "transcripts" default.transcripts Path.ofToml?
  let segments ← fields.withDefault? "segments" default.segments Path.ofToml?
  let draftBank ←
    fields.withDefault? "draft_bank" default.draftBank Path.ofToml?
  let finalBank ← fields.withDefault? "final_bank" default.finalBank
    fun given => (Path.ofToml? given).map some
  let sets ← fields.withDefault? "qbank" default.sets Path.ofToml?
  return ⟨index, placeholders, transcripts, segments, draftBank, finalBank,
    sets⟩

end Paths

namespace Window.Bounds

def fieldNames : List String :=
  ["max_len", "min_len"]

def ofToml? (value : Toml) : Option Bounds := do
  let default : Bounds := {}
  let fields ← value.fields? fieldNames
  let maxLength ← fields.withDefault? "max_len" default.maxLength word64?
  let minLength ← fields.withDefault? "min_len" default.minLength word64?
  return ⟨maxLength, minLength⟩

end Window.Bounds

namespace Config

def fieldNames : List String :=
  ["paths", "segmenter", "rules"]

def ofToml? (value : Toml) : Option Config := do
  let fields ← value.fields? fieldNames
  let paths ← fields.withDefault? "paths" {} Paths.ofToml?
  let bounds ← fields.withDefault? "segmenter" {} Window.Bounds.ofToml?
  let rules ← fields.withDefault? "rules" [] (list? Rule.ofToml?)
  return ⟨paths, bounds, rules⟩

/-- The configuration in the content of a file. -/
def parse? (content : String) : Option Config :=
  Toml.parse? content >>= ofToml?

end Config

end LectureQuiz
