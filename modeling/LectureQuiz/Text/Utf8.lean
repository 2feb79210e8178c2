namespace LectureQuiz.Text

/-- The text that the bytes encode, when they are well formed. -/
def text? (bytes : ByteArray) : Option String :=
  String.fromUTF8? bytes

/-- The character whose encoding the bytes start with. An encoding has at most
four bytes. -/
def firstChar? (bytes : List UInt8) : Option Char :=
  (bytes.take 4).toByteArray.utf8DecodeChar? 0

/-- The characters encoded in the bytes. A byte that starts no well-formed
encoding is dropped. A continuation byte never starts one, so what follows a
broken start is dropped with it. -/
def decodeLossy (bytes : List UInt8) : List Char :=
  match bytes with
  | [] => []
  | byte :: rest =>
      match firstChar? (byte :: rest) with
      | none => decodeLossy rest
      | some character =>
          character :: decodeLossy (rest.drop (character.utf8Size - 1))
termination_by bytes.length
decreasing_by all_goals (simp only [List.length_cons, List.length_drop]; omega)

/-- The lossy text of a file's bytes. -/
def lossyText (bytes : ByteArray) : String :=
  String.ofList (decodeLossy bytes.data.toList)

@[simp] theorem text?_toUTF8 (text : String) :
    text? text.toUTF8 = some text := by
  have valid : text.toByteArray.IsValidUTF8 := text.isValidUTF8
  simp [text?, String.fromUTF8?, String.toUTF8, String.fromUTF8, valid]

end LectureQuiz.Text
