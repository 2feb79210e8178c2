import LectureQuiz.Error
import LectureQuiz.Json.Record

/-!
# Quiz sets

The items of a course module are handed out as two sets, one for practice and
one for memorizing. A manifest lists the sets in a folder with their sizes and
digests.
-/

namespace LectureQuiz

/-- How a set is used. Both sets of a module hold the same items. -/
inductive SetMode where
  /-- The answer is hidden until the student responds. -/
  | practice
  /-- The answer is shown on demand. -/
  | memorize
  deriving DecidableEq, Repr

namespace SetMode

def all : List SetMode :=
  [.practice, .memorize]

def name : SetMode → String
  | .practice => "practice"
  | .memorize => "memorize"

def ofName? (name : String) : Option SetMode :=
  if name = "practice" then some .practice
  else if name = "memorize" then some .memorize
  else none

@[simp] theorem ofName?_name (mode : SetMode) : ofName? mode.name = some mode := by
  cases mode <;> simp [ofName?, name]

/-- The mode with a name in ASCII letters of either case. -/
def parse (name : String) : Except Error SetMode :=
  match ofName? name.toLower with
  | some mode => .ok mode
  | none => .error (.unknownMode name.toLower)

/-- Practice sets come first. -/
def rank : SetMode → Nat
  | .practice => 0
  | .memorize => 1

/-- The name of the file that holds the set of a module. -/
def fileName (mode : SetMode) (module : UInt32) : String :=
  s!"{mode.name}_m{module}.jsonl"

end SetMode

/-- What a manifest tells of one set. -/
structure SetEntry where
  mode : SetMode
  module : UInt32
  fileName : String
  items : UInt64
  /-- The digest of the file's content. -/
  digest : String
  deriving DecidableEq, Repr

namespace SetEntry

def fieldNames : List String :=
  ["mode", "module", "filename", "items", "sha256"]

def toJson (entry : SetEntry) : Json :=
  .object
    [("mode", .string entry.mode.name),
      ("module", Json.ofWord32 entry.module),
      ("filename", .string entry.fileName),
      ("items", Json.ofWord64 entry.items),
      ("sha256", .string entry.digest)]

def ofJson? (value : Json) : Option SetEntry := do
  let fields ← value.fields? fieldNames
  let mode ← fields.required? "mode" (Json.named? SetMode.ofName?)
  let module ← fields.required? "module" Json.word32?
  let fileName ← fields.required? "filename" Json.text?
  let items ← fields.required? "items" Json.word64?
  let digest ← fields.required? "sha256" Json.text?
  return ⟨mode, module, fileName, items, digest⟩

/-- Entries are ordered by module, and those of one module by mode. -/
def precedes (first second : SetEntry) : Bool :=
  first.module < second.module ||
    (first.module == second.module && first.mode.rank ≤ second.mode.rank)

end SetEntry

structure Manifest where
  sets : List SetEntry
  deriving DecidableEq, Repr

namespace Manifest

def empty : Manifest := ⟨[]⟩

def toJson (manifest : Manifest) : Json :=
  .object [("sets", .array (manifest.sets.map SetEntry.toJson))]

def ofJson? (value : Json) : Option Manifest := do
  let fields ← value.fields? ["sets"]
  let sets ← fields.required? "sets" (Json.list? SetEntry.ofJson?)
  return ⟨sets⟩

/-- The name of the manifest in its folder. -/
def fileName : String := "manifest.json"

end Manifest

end LectureQuiz
