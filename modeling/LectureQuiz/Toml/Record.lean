import LectureQuiz.Fields
import LectureQuiz.Toml.Value

namespace LectureQuiz.Toml

/-- The given fields of a record with the declared names. -/
def fields? (names : List String) : Toml → Option (Fields Toml)
  | .table entries => some entries
  | .array elements => some (names.zip elements)
  | .date _ => some []
  | _ => none

def text? : Toml → Option String
  | .string text => some text
  | _ => none

def boolean? : Toml → Option Bool
  | .boolean value => some value
  | _ => none

/-- An integer of 32 bits without sign. -/
def word32? : Toml → Option UInt32
  | .integer value =>
      if 0 ≤ value ∧ value.toNat < UInt32.size then
        some value.toNat.toUInt32
      else
        none
  | _ => none

/-- An integer of 64 bits without sign. -/
def word64? : Toml → Option UInt64
  | .integer value =>
      if 0 ≤ value ∧ value.toNat < UInt64.size then
        some value.toNat.toUInt64
      else
        none
  | _ => none

/-- An array of values. -/
def list? {alpha : Type}
    (read : Toml → Option alpha) : Toml → Option (List alpha)
  | .array elements => elements.mapM read
  | _ => none

end LectureQuiz.Toml
