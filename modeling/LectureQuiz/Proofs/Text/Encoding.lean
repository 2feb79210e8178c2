import Mathlib.Data.Set.List
import LectureQuiz.Proofs.Text.Pieces
import LectureQuiz.Text.Utf8

namespace LectureQuiz.Text

/-- The byte of a line feed. -/
def feedByte : UInt8 :=
  10

/-- The bytes that encode a text. -/
def encode (text : List Char) : List UInt8 :=
  text.flatMap String.utf8EncodeChar

theorem encode_append (first second : List Char) :
    encode (first ++ second) = encode first ++ encode second :=
  List.flatMap_append

theorem encode_feed : encode ['\n'] = [feedByte] := rfl

theorem encode_append_feed (line rest : List Char) :
    encode (line ++ '\n' :: rest) = encode line ++ feedByte :: encode rest := by
  rw [encode_append, ← List.singleton_append, encode_append, encode_feed,
    List.singleton_append]

theorem encode_eq_nil_iff {text : List Char} : encode text = [] ↔ text = [] := by
  rw [encode, List.flatMap_eq_nil_iff, List.eq_nil_iff_forall_not_mem]
  exact ⟨fun nothing character member =>
      String.utf8EncodeChar_ne_nil (nothing character member),
    fun nothing character member => absurd member (nothing character)⟩

theorem toList_data_toUTF8 (text : String) :
    text.toUTF8.data.toList = encode text.toList := by
  rw [String.toUTF8, ← String.utf8Encode_toList]
  exact List.toList_data_toByteArray

theorem eq_ofNat_iff {byte : UInt8} {code : Nat} :
    byte = UInt8.ofNat code ↔ code % 256 = byte.toNat := by
  rw [← UInt8.toNat_inj, UInt8.toNat_ofNat']
  exact eq_comm

/-- The first byte of a longer encoding and those behind it are all above the ones of
ASCII characters. -/
theorem toNat_of_mem_utf8EncodeChar
    {byte : UInt8} {character : Char} (ascii : byte.toNat < 128)
    (member : byte ∈ String.utf8EncodeChar character) : character.toNat = byte.toNat := by
  change character.val.toNat = byte.toNat
  delta String.utf8EncodeChar at member
  dsimp only at member
  split at member
  · rw [List.mem_singleton, eq_ofNat_iff] at member
    omega
  · split at member
    · simp only [List.mem_cons, List.not_mem_nil, or_false, eq_ofNat_iff] at member
      omega
    · split at member <;>
        simp only [List.mem_cons, List.not_mem_nil, or_false, eq_ofNat_iff] at member <;>
        omega

/-- The byte of an ASCII character is part of no other encoding. -/
theorem byte_not_mem_encode
    {byte : UInt8} {character : Char} (ascii : byte.toNat < 128)
    (same : character.toNat = byte.toNat) {text : List Char} (absent : character ∉ text) :
    byte ∉ encode text := by
  intro member
  obtain ⟨other, inText, inCode⟩ := List.mem_flatMap.1 member
  have code := toNat_of_mem_utf8EncodeChar ascii inCode
  have isOther : other = character := Char.ext (UInt32.toNat_inj.1 (code.trans same.symm))
  exact absent (isOther ▸ inText)

theorem feedByte_not_mem_encode {line : List Char} (single : '\n' ∉ line) :
    feedByte ∉ encode line :=
  byte_not_mem_encode (by decide) rfl single

theorem encode_join (separator : Char) (parts : List (List Char)) :
    encode (join separator parts) =
      (encode [separator]).intercalate (parts.map encode) := by
  induction parts with
  | nil => rfl
  | cons first rest inductionHypothesis =>
      by_cases isLast : rest = []
      · simp [isLast, join]
      · have others : rest.map encode ≠ [] := by simpa using isLast
        rw [join_cons first isLast, encode_append, ← List.singleton_append, encode_append,
          inductionHypothesis, List.map_cons, List.intercalate_cons_of_ne_nil others,
          List.append_assoc]

theorem text?_eq_some_iff {bytes : ByteArray} {text : String} :
    text? bytes = some text ↔ bytes.data.toList = encode text.toList := by
  rw [← toList_data_toUTF8]
  constructor
  · intro isText
    rw [text?, String.fromUTF8?] at isText
    split at isText
    · rw [← Option.some.inj isText]
      rfl
    · exact absurd isText.symm (Option.some_ne_none text)
  · intro same
    rw [ByteArray.ext (Array.toList_inj.1 same), text?_toUTF8]

theorem text?_toByteArray_eq_some_iff {bytes : List UInt8} {text : String} :
    text? bytes.toByteArray = some text ↔ bytes = encode text.toList := by
  rw [text?_eq_some_iff, List.toList_data_toByteArray]

/-- The bytes encode a text. -/
def IsEncoded (bytes : List UInt8) : Prop :=
  (text? bytes.toByteArray).isSome = true

instance (bytes : List UInt8) : Decidable (IsEncoded bytes) :=
  inferInstanceAs (Decidable (_ = true))

theorem isEncoded_data_iff {bytes : ByteArray} :
    IsEncoded bytes.data.toList ↔ (text? bytes).isSome = true := by
  have same : bytes.data.toList.toByteArray = bytes :=
    ByteArray.ext (Array.toList_inj.1 List.toList_data_toByteArray)
  rw [IsEncoded, same]

theorem isEncoded_iff {bytes : List UInt8} :
    IsEncoded bytes ↔ ∃ text, encode text = bytes := by
  rw [IsEncoded, Option.isSome_iff_exists]
  simp only [text?_toByteArray_eq_some_iff]
  constructor
  · intro isText
    obtain ⟨text, same⟩ := isText
    exact ⟨text.toList, same.symm⟩
  · intro isText
    obtain ⟨text, same⟩ := isText
    exact ⟨String.ofList text, by rw [String.toList_ofList, same]⟩

/-- The parts of the bytes between line feeds. -/
def byteLines (bytes : List UInt8) : List (List UInt8) :=
  bytes.splitOn feedByte

theorem byteLines_encode (text : List Char) :
    byteLines (encode text) = (pieces '\n' text).map encode := by
  by_cases hasFeed : '\n' ∈ text
  · obtain ⟨line, rest, rfl, single⟩ := List.eq_append_cons_of_mem hasFeed
    rw [encode_append_feed, byteLines, List.splitOn_append_cons_self,
      List.splitOn_eq_singleton (feedByte_not_mem_encode single), ← byteLines,
      byteLines_encode rest, pieces_append_separator, pieces_of_not_mem single]
    rfl
  · rw [byteLines, List.splitOn_eq_singleton (feedByte_not_mem_encode hasFeed),
      pieces_of_not_mem hasFeed]
    rfl
termination_by text.length

theorem encode_joinLines (lines : List (List Char)) :
    encode (joinLines lines) = [feedByte].intercalate (lines.map encode) :=
  encode_join '\n' lines

/-- Bytes encode a text exactly if each of their lines does. -/
theorem isEncoded_iff_byteLines {bytes : List UInt8} :
    IsEncoded bytes ↔ ∀ line ∈ byteLines bytes, IsEncoded line := by
  constructor
  · intro isText line member
    obtain ⟨text, rfl⟩ := isEncoded_iff.1 isText
    rw [byteLines_encode] at member
    obtain ⟨piece, _, same⟩ := List.mem_map.1 member
    exact isEncoded_iff.2 ⟨piece, same⟩
  · intro areTexts
    have inRange : byteLines bytes ∈ Set.range (List.map encode) := by
      rw [Set.range_list_map]
      exact fun line member => isEncoded_iff.1 (areTexts line member)
    obtain ⟨texts, same⟩ := inRange
    refine isEncoded_iff.2 ⟨joinLines texts, ?_⟩
    rw [encode_joinLines, same, byteLines, List.intercalate_splitOn]

end LectureQuiz.Text
