namespace LectureQuiz

inductive Toml where
  | string (text : String)
  | integer (value : Int)
  | float (spelling : String)
  | boolean (value : Bool)
  | date (spelling : String)
  | array (elements : List Toml)
  | table (entries : List (String × Toml))

end LectureQuiz
