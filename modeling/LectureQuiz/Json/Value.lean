namespace LectureQuiz

inductive Json where
  | null
  | boolean (value : Bool)
  /-- A number without sign, fraction and exponent. -/
  | natural (value : Nat)
  /-- Any other number, as it is spelled. -/
  | numeral (spelling : String)
  | string (text : String)
  | array (elements : List Json)
  | object (members : List (String × Json))
  /-- A string that is well formed but denotes no text, because a surrogate
  escape in it has no partner, or an object with such a key. It may stand where
  nothing is read. -/
  | unreadable

end LectureQuiz
