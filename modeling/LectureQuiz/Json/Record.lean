import LectureQuiz.Fields
import LectureQuiz.Json.Value

namespace LectureQuiz.Json

/-- The given fields of a record with the declared names. -/
def fields? (names : List String) : Json → Option (Fields Json)
  | .object members =>
      let known := members.filter (names.contains ·.1)
      if (known.map Prod.fst).Nodup then some known else none
  | .array elements =>
      if elements.length ≤ names.length then some (names.zip elements) else none
  | _ => none

def text? : Json → Option String
  | .string text => some text
  | _ => none

/-- An integer of 32 bits. -/
def word32? : Json → Option UInt32
  | .natural value => if value < UInt32.size then some value.toUInt32 else none
  | _ => none

/-- An integer of 64 bits. -/
def word64? : Json → Option UInt64
  | .natural value => if value < UInt64.size then some value.toUInt64 else none
  | _ => none

/-- A value that may be absent, which `null` says. -/
def optional? {alpha : Type}
    (read : Json → Option alpha) : Json → Option (Option alpha)
  | .null => some none
  | value => (read value).map some

/-- An array of values. -/
def list? {alpha : Type}
    (read : Json → Option alpha) : Json → Option (List alpha)
  | .array elements => elements.mapM read
  | _ => none

/-- One of several names, given as a string, or as an object whose only key is
the name and whose value is `null`. -/
def named? {alpha : Type}
    (name? : String → Option alpha) : Json → Option alpha
  | .string name => name? name
  | .object [(name, .null)] => name? name
  | _ => none

def ofWord32 (value : UInt32) : Json :=
  .natural value.toNat

def ofWord64 (value : UInt64) : Json :=
  .natural value.toNat

def ofOptional {alpha : Type} (write : alpha → Json) : Option alpha → Json
  | none => .null
  | some value => write value

def ofTexts (texts : List String) : Json :=
  .array (texts.map .string)

end LectureQuiz.Json
