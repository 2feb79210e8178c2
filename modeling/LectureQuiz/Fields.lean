namespace LectureQuiz

/-- The fields that were given, by name. -/
abbrev Fields (value : Type) := List (String × value)

namespace Fields

variable {value result : Type}

/-- A field that must be given. -/
def required?
    (fields : Fields value) (name : String) (read : value → Option result) :
    Option result :=
  fields.lookup name >>= read

/-- A field that has a default. -/
def withDefault?
    (fields : Fields value) (name : String) (default : result)
    (read : value → Option result) : Option result :=
  match fields.lookup name with
  | none => some default
  | some given => read given

end Fields

end LectureQuiz
