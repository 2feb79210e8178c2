import LectureQuiz.Proofs.Text.Encoding

/-!
# Texts among broken bytes

Reading bytes as text drops those that belong to no encoded character. A byte inside an
encoding never starts one, so a broken start cannot take bytes from the text behind it, and
a text among any bytes is kept as it is. What is read is written in the bytes, in order.
-/

namespace LectureQuiz.Text

variable {bytes before after rest : List UInt8} {character : Char}

theorem firstChar?_eq_some_iff :
    firstChar? bytes = some character ↔ String.utf8EncodeChar character <+: bytes := by
  constructor
  · intro isRead
    obtain ⟨behind, whole⟩ := ByteArray.exists_of_utf8DecodeChar?_eq_some isRead
    have front : String.utf8EncodeChar character <+: bytes.take 4 := by
      refine ⟨behind.data.toList, ?_⟩
      have same := congrArg (fun array => array.data.toList) whole
      simpa using same.symm
    exact front.trans (List.take_prefix 4 bytes)
  · rintro ⟨rest, rfl⟩
    have short : (String.utf8EncodeChar character).length ≤ 4 := by
      rw [String.length_utf8EncodeChar]
      exact character.utf8Size_le_four
    rw [firstChar?, List.take_append, List.take_of_length_le short, List.toByteArray_append]
    exact ByteArray.utf8DecodeChar?_utf8EncodeChar_append

theorem firstChar?_eq_none_iff :
    firstChar? bytes = none ↔ ∀ character, ¬String.utf8EncodeChar character <+: bytes := by
  simp only [Option.eq_none_iff_forall_ne_some, ne_eq, firstChar?_eq_some_iff]

/-- Of the bytes of an encoding only the first one may start an encoding. -/
theorem isUTF8FirstByte_iff
    {byte : UInt8} (whole : String.utf8EncodeChar character = before ++ byte :: after) :
    byte.IsUTF8FirstByte ↔ before = [] := by
  have inside : before.length < (String.utf8EncodeChar character).length := by
    simp [whole]
  have isByte : (String.utf8EncodeChar character)[before.length] = byte := by
    simp [whole]
  have isFirst := @UInt8.isUTF8FirstByte_getElem_utf8EncodeChar character before.length inside
  rw [isByte, List.length_eq_zero_iff] at isFirst
  exact isFirst

/-- Bytes that no character starts with start none when a character follows them. -/
theorem firstChar?_append_eq_none
    (notEmpty : before ≠ []) (broken : firstChar? before = none)
    (character : Char) (after : List UInt8) :
    firstChar? (before ++ (String.utf8EncodeChar character ++ after)) = none := by
  rw [firstChar?_eq_none_iff] at broken ⊢
  intro other starts
  rcases List.prefix_or_prefix_of_prefix starts (List.prefix_append before _)
    with inside | ⟨ending, whole⟩
  · exact broken other inside
  · cases ending with
    | nil => exact broken other (by simp [← whole])
    | cons byte more =>
        -- The encoding that goes on behind `before` would hold the first byte of the next.
        rw [← whole, List.prefix_append_right_inj] at starts
        have notFirst := mt (isUTF8FirstByte_iff whole.symm).1 notEmpty
        cases next : String.utf8EncodeChar character with
        | nil => exact String.utf8EncodeChar_ne_nil next
        | cons first others =>
            rw [next, List.cons_append, List.cons_prefix_cons] at starts
            have isFirst := (@isUTF8FirstByte_iff [] others character first next).2 rfl
            rw [starts.1] at notFirst
            exact notFirst isFirst

theorem decodeLossy_nil : decodeLossy [] = [] := by
  rw [decodeLossy]

theorem decodeLossy_of_none
    {byte : UInt8} (broken : firstChar? (byte :: rest) = none) :
    decodeLossy (byte :: rest) = decodeLossy rest := by
  rw [decodeLossy, broken]

theorem encodeChar_append_eq_cons (character : Char) (rest : List UInt8) :
    ∃ byte others, String.utf8EncodeChar character ++ rest = byte :: others ∧
      others.drop (character.utf8Size - 1) = rest := by
  have size := String.length_utf8EncodeChar character
  cases whole : String.utf8EncodeChar character with
  | nil => exact absurd whole String.utf8EncodeChar_ne_nil
  | cons byte inside =>
      rw [whole, List.length_cons] at size
      refine ⟨byte, inside ++ rest, List.cons_append, ?_⟩
      rw [← size, Nat.add_sub_cancel, List.drop_left]

theorem decodeLossy_encodeChar_append (character : Char) (rest : List UInt8) :
    decodeLossy (String.utf8EncodeChar character ++ rest) =
      character :: decodeLossy rest := by
  have isRead := firstChar?_eq_some_iff.2
    (List.prefix_append (String.utf8EncodeChar character) rest)
  obtain ⟨byte, others, whole, behind⟩ := encodeChar_append_eq_cons character rest
  rw [whole] at isRead ⊢
  rw [decodeLossy, isRead]
  dsimp only
  rw [behind]

/-- Bytes start with one that is dropped or with the encoding of a character. -/
theorem decodeLossy_induction
    {motive : List UInt8 → Prop} (empty : motive [])
    (dropped : ∀ byte rest, firstChar? (byte :: rest) = none → motive rest →
      motive (byte :: rest))
    (kept : ∀ character rest, motive rest →
      motive (String.utf8EncodeChar character ++ rest))
    (bytes : List UInt8) : motive bytes := by
  fun_induction decodeLossy bytes with
  | case1 => exact empty
  | case2 byte rest broken inductionHypothesis =>
      exact dropped byte rest broken inductionHypothesis
  | case3 byte rest character isRead inductionHypothesis =>
      obtain ⟨behind, whole⟩ := firstChar?_eq_some_iff.1 isRead
      obtain ⟨first, others, split, left⟩ := encodeChar_append_eq_cons character behind
      have isRest : others = rest := (List.cons.inj (split.symm.trans whole)).2
      rw [← isRest, left] at inductionHypothesis
      rw [← whole]
      exact kept character behind inductionHypothesis

theorem decodeLossy_encode_append (text : List Char) (after : List UInt8) :
    decodeLossy (encode text ++ after) = text ++ decodeLossy after := by
  induction text with
  | nil => rfl
  | cons first rest inductionHypothesis =>
      rw [encode, List.flatMap_cons, List.append_assoc, ← encode,
        decodeLossy_encodeChar_append, inductionHypothesis, List.cons_append]

theorem decodeLossy_encode (text : List Char) : decodeLossy (encode text) = text := by
  have alone := decodeLossy_encode_append text []
  rwa [List.append_nil, decodeLossy_nil, List.append_nil] at alone

/-- A text is read among any bytes; the bytes in front of it are read as if they were
alone. -/
theorem decodeLossy_append_encode_append
    (before : List UInt8) {text : List Char} (notEmpty : text ≠ []) (after : List UInt8) :
    decodeLossy (before ++ (encode text ++ after)) =
      decodeLossy before ++ (text ++ decodeLossy after) := by
  induction before using decodeLossy_induction with
  | empty =>
      rw [decodeLossy_nil, List.nil_append, List.nil_append, decodeLossy_encode_append]
  | dropped byte rest broken inductionHypothesis =>
      obtain ⟨first, others, rfl⟩ := List.exists_cons_of_ne_nil notEmpty
      have stillBroken : firstChar? (byte :: (rest ++ (encode (first :: others) ++ after))) =
          none := by
        have apart := firstChar?_append_eq_none (List.cons_ne_nil byte rest) broken first
          (encode others ++ after)
        rwa [← List.append_assoc (String.utf8EncodeChar first), List.cons_append] at apart
      rw [List.cons_append, decodeLossy_of_none stillBroken, decodeLossy_of_none broken,
        inductionHypothesis]
  | kept character rest inductionHypothesis =>
      rw [List.append_assoc, decodeLossy_encodeChar_append, decodeLossy_encodeChar_append,
        inductionHypothesis, List.cons_append]

/-- Nothing is written in place of what is dropped. -/
theorem encode_decodeLossy_sublist (bytes : List UInt8) :
    (encode (decodeLossy bytes)).Sublist bytes := by
  induction bytes using decodeLossy_induction with
  | empty =>
      rw [decodeLossy_nil]
      exact List.Sublist.refl []
  | dropped byte rest broken inductionHypothesis =>
      rw [decodeLossy_of_none broken]
      exact inductionHypothesis.cons byte
  | kept character rest inductionHypothesis =>
      rw [decodeLossy_encodeChar_append, encode, List.flatMap_cons, ← encode]
      exact inductionHypothesis.append_left _

theorem lossyText_toUTF8 (text : String) : lossyText text.toUTF8 = text := by
  rw [lossyText, toList_data_toUTF8, decodeLossy_encode, String.ofList_toList]

theorem toList_data_append (first second : ByteArray) :
    (first ++ second).data.toList = first.data.toList ++ second.data.toList := by
  rw [ByteArray.data_append, Array.toList_append]

/-- Reading bytes keeps every text that is written in them, whatever bytes are around it,
and the bytes on both sides are read as if they were alone. A written text is read as it is,
so reading what was read changes nothing, and the bytes of what is read are among the given
bytes, in their order. -/
theorem lossyText_keeps_texts :
    (∀ (before after : ByteArray) (text : String), text ≠ "" →
      lossyText (before ++ text.toUTF8 ++ after) =
        lossyText before ++ text ++ lossyText after) ∧
    (∀ text : String, lossyText text.toUTF8 = text) ∧
    (∀ bytes : ByteArray, lossyText (lossyText bytes).toUTF8 = lossyText bytes) ∧
    ∀ bytes : ByteArray,
      (lossyText bytes).toUTF8.data.toList.Sublist bytes.data.toList := by
  refine ⟨?_, lossyText_toUTF8, fun bytes => lossyText_toUTF8 _, ?_⟩
  · intro before after text notEmpty
    have hasChars : text.toList ≠ [] := mt String.toList_eq_nil_iff.1 notEmpty
    rw [lossyText, toList_data_append, toList_data_append, toList_data_toUTF8,
      List.append_assoc, decodeLossy_append_encode_append _ hasChars, String.ofList_append,
      String.ofList_append, String.ofList_toList, String.append_assoc]
    rfl
  · intro bytes
    rw [toList_data_toUTF8, lossyText, String.toList_ofList]
    exact encode_decodeLossy_sublist bytes.data.toList

/-- A character is cut off in front of the text, and the end of another is behind it. -/
theorem lossyText_keeps_texts_sample :
    "né" ≠ "" ∧
      lossyText (ByteArray.mk #[0xE2, 0x82] ++ "né".toUTF8 ++ ByteArray.mk #[0x82, 0x6F]) =
        "né" ++ "o" := by
  have notEmpty : "né" ≠ "" := by decide
  have cutOff : lossyText (ByteArray.mk #[0xE2, 0x82]) = "" := by decide +kernel
  have leftOver : lossyText (ByteArray.mk #[0x82, 0x6F]) = "o" := by decide +kernel
  have kept := lossyText_keeps_texts.1 (ByteArray.mk #[0xE2, 0x82])
    (ByteArray.mk #[0x82, 0x6F]) "né" notEmpty
  rw [cutOff, leftOver, String.empty_append] at kept
  exact ⟨notEmpty, kept⟩

end LectureQuiz.Text
