import LectureQuiz.Csv
import LectureQuiz.Proofs.Text.Encoding

/-!
# Tables without quotes

A line of a table whose fields hold no comma, no quote and no line break is read as
these fields, however it is ended. Only a line with nothing on it is no record. A byte
order mark in front of the table belongs to no field.
-/

namespace LectureQuiz.Csv

open LectureQuiz.Text

/-- The byte stands for itself in a field. -/
structure IsPlainByte (byte : UInt8) : Prop where
  notComma : byte ≠ comma
  notQuote : byte ≠ quote
  notBreak : isBreak byte = false

/-- A field may start, or goes on without quotes. -/
def Mode.IsOpen (mode : Mode) : Prop :=
  mode ≠ .quoted ∧ mode ≠ .afterQuote

instance (mode : Mode) : Decidable mode.IsOpen :=
  inferInstanceAs (Decidable (_ ∧ _))

variable {mode : Mode} {byte : UInt8} {field bytes rest : List UInt8}
variable {record fields : List (List UInt8)}

theorem step_of_plain (isOpen : mode.IsOpen) (plain : IsPlainByte byte) :
    mode.step byte = .keep .plain := by
  have plainStepOf : plainStep byte = .keep .plain := by
    rw [plainStep, if_neg plain.notComma, plain.notBreak]
    rfl
  cases mode with
  | betweenRecords =>
      rw [Mode.step, plain.notBreak, if_neg Bool.false_ne_true, if_neg plain.notQuote,
        plainStepOf]
  | fieldStart => rw [Mode.step, if_neg plain.notQuote, plainStepOf]
  | plain => rw [Mode.step, plainStepOf]
  | quoted => exact absurd rfl isOpen.1
  | afterQuote => exact absurd rfl isOpen.2

theorem scan_plain
    (isOpen : mode.IsOpen) (notEmpty : bytes ≠ [])
    (plain : ∀ byte ∈ bytes, IsPlainByte byte) :
    scan mode field record (bytes ++ rest) = scan .plain (field ++ bytes) record rest := by
  induction bytes generalizing mode field with
  | nil => exact absurd rfl notEmpty
  | cons first others inductionHypothesis =>
      rw [List.forall_mem_cons] at plain
      rw [List.cons_append, scan, step_of_plain isOpen plain.1]
      by_cases isLast : others = []
      · rw [isLast, List.nil_append]
      · have later := @inductionHypothesis .plain (field ++ [first]) (by decide) isLast plain.2
        rw [List.append_assoc, List.singleton_append] at later
        exact later

theorem scan_comma (isOpen : mode.IsOpen) :
    scan mode field record (comma :: rest) =
      scan .fieldStart [] (record ++ [field]) rest := by
  cases mode with
  | betweenRecords => rfl
  | fieldStart => rfl
  | plain => rfl
  | quoted => exact absurd rfl isOpen.1
  | afterQuote => exact absurd rfl isOpen.2

theorem scan_break
    (isOpen : mode.IsOpen) (started : mode ≠ .betweenRecords) (ends : isBreak byte = true) :
    scan mode field record (byte :: rest) =
      (record ++ [field]) :: scan .betweenRecords [] [] rest := by
  have notComma : byte ≠ comma := by
    rintro rfl
    exact absurd ends (by decide)
  have notQuote : byte ≠ quote := by
    rintro rfl
    exact absurd ends (by decide)
  have stepOf : mode.step byte = .endRecord := by
    cases mode with
    | betweenRecords => exact absurd rfl started
    | fieldStart => rw [Mode.step, if_neg notQuote, plainStep, if_neg notComma, if_pos ends]
    | plain => rw [Mode.step, plainStep, if_neg notComma, if_pos ends]
    | quoted => exact absurd rfl isOpen.1
    | afterQuote => exact absurd rfl isOpen.2
  rw [scan, stepOf]

theorem scan_field_comma
    (isOpen : mode.IsOpen) (plain : ∀ byte ∈ bytes, IsPlainByte byte) :
    scan mode [] record (bytes ++ comma :: rest) =
      scan .fieldStart [] (record ++ [bytes]) rest := by
  by_cases isEmpty : bytes = []
  · rw [isEmpty, List.nil_append, scan_comma isOpen]
  · rw [scan_plain isOpen isEmpty plain, List.nil_append, scan_comma (by decide)]

/-- A record ends at the break behind its fields, as long as something stands in front
of the break. -/
theorem scan_fields
    (isOpen : mode.IsOpen) (notEmpty : fields ≠ [])
    (notBlank : mode = .betweenRecords → fields ≠ [[]])
    (plain : ∀ field ∈ fields, ∀ byte ∈ field, IsPlainByte byte)
    (ends : isBreak byte = true) :
    scan mode [] record ([comma].intercalate fields ++ byte :: rest) =
      (record ++ fields) :: scan .betweenRecords [] [] rest := by
  induction fields generalizing mode record with
  | nil => exact absurd rfl notEmpty
  | cons first others inductionHypothesis =>
      rw [List.forall_mem_cons] at plain
      by_cases isLast : others = []
      · subst isLast
        rw [List.intercalate_singleton]
        by_cases isEmpty : first = []
        · subst isEmpty
          have started : mode ≠ .betweenRecords := fun isStart => notBlank isStart rfl
          rw [List.nil_append, scan_break isOpen started ends]
        · rw [scan_plain isOpen isEmpty plain.1, List.nil_append,
            scan_break (by decide) (by decide) ends]
      · have later := @inductionHypothesis .fieldStart (record ++ [first]) (by decide) isLast
          nofun plain.2
        rw [List.intercalate_cons_of_ne_nil isLast, List.append_assoc, List.append_assoc,
          List.singleton_append, scan_field_comma isOpen plain.1, later, List.append_assoc,
          List.singleton_append]

/-- How a line is ended. -/
inductive LineEnd where
  | feed
  | returnFeed
  deriving DecidableEq, Repr

def LineEnd.chars : LineEnd → List Char
  | .feed => ['\n']
  | .returnFeed => ['\r', '\n']

/-- The fields of a line as they are written, and its end. -/
structure Line where
  fields : List String
  ending : LineEnd
  deriving DecidableEq, Repr

/-- A field can be written without quotes. -/
def IsPlainField (field : String) : Prop :=
  ∀ character ∈ field.toList, character ∉ [',', '"', '\n', '\r']

instance (field : String) : Decidable (IsPlainField field) :=
  List.decidableBAll _ field.toList

/-- The line has something on it, and its fields need no quotes. -/
structure Line.IsPlain (line : Line) : Prop where
  notEmpty : line.fields ≠ []
  notBlank : line.fields ≠ [""]
  plain : ∀ field ∈ line.fields, IsPlainField field

def Line.chars (line : Line) : List Char :=
  join ',' (line.fields.map String.toList) ++ line.ending.chars

/-- The characters of a table. -/
def tableChars (lines : List Line) : List Char :=
  lines.flatMap Line.chars

/-- The bytes of a table. -/
def tableBytes (lines : List Line) : List UInt8 :=
  (String.ofList (tableChars lines)).toUTF8.data.toList

variable {line : Line} {lines : List Line} {text : String}

theorem isPlainByte_of_mem_encode
    (plain : IsPlainField text) : ∀ byte ∈ encode text.toList, IsPlainByte byte := by
  have absent {character : Char} (special : character ∈ [',', '"', '\n', '\r']) :
      character ∉ text.toList := fun inText => plain character inText special
  have noComma : comma ∉ encode text.toList :=
    byte_not_mem_encode (by decide) rfl (@absent ',' (by decide))
  have noQuote : quote ∉ encode text.toList :=
    byte_not_mem_encode (by decide) rfl (@absent '"' (by decide))
  have noFeed : (0x0A : UInt8) ∉ encode text.toList :=
    byte_not_mem_encode (by decide) rfl (@absent '\n' (by decide))
  have noReturn : (0x0D : UInt8) ∉ encode text.toList :=
    byte_not_mem_encode (by decide) rfl (@absent '\r' (by decide))
  intro byte member
  refine ⟨fun same => noComma (same ▸ member), fun same => noQuote (same ▸ member), ?_⟩
  rw [isBreak, Bool.or_eq_false_iff, beq_eq_false_iff_ne, beq_eq_false_iff_ne]
  exact ⟨fun same => noFeed (same ▸ member), fun same => noReturn (same ▸ member)⟩

/-- The bytes that encode the fields of a line. -/
def Line.encoded (line : Line) : List (List UInt8) :=
  line.fields.map fun field => encode field.toList

theorem encoded_ne_blank (notBlank : line.fields ≠ [""]) : line.encoded ≠ [[]] := by
  intro isBlank
  obtain ⟨field, onlyField, isEmpty⟩ := List.map_eq_singleton_iff.1 isBlank
  rw [encode_eq_nil_iff, String.toList_eq_nil_iff] at isEmpty
  exact notBlank (isEmpty ▸ onlyField)

theorem scan_line (plain : line.IsPlain) (rest : List UInt8) :
    scan .betweenRecords [] [] (encode line.chars ++ rest) =
      line.encoded :: scan .betweenRecords [] [] rest := by
  have notEmpty : line.encoded ≠ [] := by simpa [Line.encoded] using plain.notEmpty
  have plainBytes : ∀ field ∈ line.encoded, ∀ byte ∈ field, IsPlainByte byte := by
    intro field member
    obtain ⟨text, inFields, rfl⟩ := List.mem_map.1 member
    exact isPlainByte_of_mem_encode (plain.plain text inFields)
  have ended {byte : UInt8} (ends : isBreak byte = true) (behind : List UInt8) :
      scan .betweenRecords [] [] ([comma].intercalate line.encoded ++ byte :: behind) =
        line.encoded :: scan .betweenRecords [] [] behind :=
    scan_fields (by decide) notEmpty (fun _ => encoded_ne_blank plain.notBlank) plainBytes ends
  have whole : encode line.chars =
      [comma].intercalate line.encoded ++ encode line.ending.chars := by
    rw [Line.chars, encode_append, encode_join, List.map_map]
    rfl
  rw [whole, List.append_assoc]
  cases line.ending with
  | feed => exact ended (by decide) rest
  | returnFeed =>
      -- The line feed behind the carriage return is a blank line.
      exact ended (by decide) (0x0A :: rest)

theorem scan_lines (plain : ∀ line ∈ lines, line.IsPlain) :
    scan .betweenRecords [] [] (encode (tableChars lines)) = lines.map Line.encoded := by
  induction lines with
  | nil => rfl
  | cons line others inductionHypothesis =>
      rw [List.forall_mem_cons] at plain
      rw [tableChars, List.flatMap_cons, encode_append, scan_line plain.1, ← tableChars,
        inductionHypothesis plain.2, List.map_cons]

def mark : Char :=
  '\uFEFF'

/-- The text without a byte order mark in front. -/
def withoutMark (text : List Char) : List Char :=
  if text.head? = some mark then text.tail else text

/-- The line without a byte order mark in front of its first field. -/
def Line.withoutMark (line : Line) : Line where
  fields :=
    match line.fields with
    | [] => []
    | first :: rest => String.ofList (Csv.withoutMark first.toList) :: rest
  ending := line.ending

theorem dropMark_encode (text : List Char) :
    dropMark (encode text) = encode (withoutMark text) := by
  cases text with
  | nil => rfl
  | cons first rest =>
      have unfolded : encode (first :: rest) = String.utf8EncodeChar first ++ encode rest :=
        List.flatMap_cons
      by_cases isMark : first = mark
      · subst isMark
        rfl
      · rw [withoutMark, if_neg (by simpa using isMark), dropMark]
        intro behind same
        have decoded := @ByteArray.utf8DecodeChar?_utf8EncodeChar_append
          (encode rest).toByteArray first
        have decodedMark := @ByteArray.utf8DecodeChar?_utf8EncodeChar_append
          behind.toByteArray mark
        rw [← List.toByteArray_append] at decoded decodedMark
        rw [← unfolded, same] at decoded
        exact isMark (Option.some.inj (decoded.symm.trans decodedMark))

theorem withoutMark_append
    {front back : List Char} (apart : back.head? ≠ some mark) :
    withoutMark (front ++ back) = withoutMark front ++ back := by
  cases front with
  | nil => exact if_neg apart
  | cons first rest =>
      rw [withoutMark, withoutMark, List.cons_append, List.head?_cons, List.head?_cons]
      split
      · rfl
      · rfl

theorem head?_append_chars_ne (ending : LineEnd) (back : List Char) :
    (ending.chars ++ back).head? ≠ some mark := by
  cases ending with
  | feed => exact fun isMark => absurd (Option.some.inj isMark) (by decide)
  | returnFeed => exact fun isMark => absurd (Option.some.inj isMark) (by decide)

theorem withoutMark_tableChars (header : Line) (rows : List Line) :
    withoutMark (tableChars (header :: rows)) = tableChars (header.withoutMark :: rows) := by
  obtain ⟨fields, ending⟩ := header
  have behind := head?_append_chars_ne ending (tableChars rows)
  simp only [tableChars, List.flatMap_cons, Line.chars, Line.withoutMark]
  rw [← tableChars]
  cases fields with
  | nil => exact if_neg behind
  | cons first rest =>
      rw [List.map_cons, List.map_cons, String.toList_ofList]
      by_cases isLast : rest.map String.toList = []
      · simp only [isLast, join, List.intercalate_singleton, List.append_assoc]
        exact withoutMark_append behind
      · simp only [join_cons _ isLast, List.append_assoc]
        exact withoutMark_append fun isMark => absurd (Option.some.inj isMark) (by decide)

theorem records_tableBytes
    {header : Line} {rows : List Line} (headerPlain : header.withoutMark.IsPlain)
    (rowsPlain : ∀ row ∈ rows, row.IsPlain) :
    records (tableBytes (header :: rows)) =
      header.withoutMark.encoded :: rows.map Line.encoded := by
  rw [records, tableBytes, toList_data_toUTF8, String.toList_ofList, dropMark_encode,
    withoutMark_tableChars, scan_lines, List.map_cons]
  exact List.forall_mem_cons.2 ⟨headerPlain, rowsPlain⟩

end LectureQuiz.Csv
