import LectureQuiz.Proofs.Job
import LectureQuiz.Proofs.Records.Lines
import LectureQuiz.Proofs.Text.Encoding

namespace LectureQuiz

open LectureQuiz.Text

namespace Records

variable {alpha : Type} [Record alpha]

theorem decodeLine?_nil : decodeLine? alpha [] = none := rfl

/-- A blank line writes no record, so all lines may be tried. -/
theorem records_parse (content : String) :
    (parse content : Records alpha).records =
      (pieces '\n' content.toList).filterMap fun line => decodeLine? alpha (trim line) := by
  change ((contentLines content).map (decodeLine? alpha)).filterMap id = _
  rw [contentLines_eq_pieces, List.filterMap_map, List.filterMap_filter, List.filterMap_map]
  congr 1
  funext line
  by_cases isEmpty : trim line = []
  · simp [isEmpty, decodeLine?_nil]
  · simp [isEmpty]

/-- The record that the bytes of a line write, when they encode a text. -/
def recordOf? (alpha : Type) [Record alpha] (line : List UInt8) : Option alpha :=
  text? line.toByteArray >>= fun text => decodeLine? alpha (trim text.toList)

theorem recordOf?_encode (line : List Char) :
    recordOf? alpha (encode line) = decodeLine? alpha (trim line) := by
  have isText : text? (encode line).toByteArray = some (String.ofList line) := by
    rw [text?_toByteArray_eq_some_iff, String.toList_ofList]
  rw [recordOf?, isText]
  exact congrArg (fun text => decodeLine? alpha (trim text)) String.toList_ofList

/-- The records of a text are the ones of the lines of its bytes. -/
theorem records_parse_of_text {content : ByteArray} {text : String}
    (isText : text? content = some text) :
    (parse text : Records alpha).records =
      (byteLines content.data.toList).filterMap (recordOf? alpha) := by
  rw [text?_eq_some_iff.1 isText, byteLines_encode, List.filterMap_map, records_parse]
  congr 1
  funext line
  exact (recordOf?_encode line).symm

end Records

namespace Job

variable {alpha : Type} [Record alpha] {files : FileTree} {path : Path} {content : ByteArray}

theorem runOn_readText (isFile : files.read path = .ok content) :
    (readText path).runOn files =
      ((match text? content with
        | some text => .ok text
        | none => .error (.inaccessible path)), ⟨files, []⟩) := by
  have found : (readBytes path).Yields ⟨files, []⟩ content ⟨files, []⟩ := by
    rw [yields_readBytes]
    exact ⟨isFile, rfl⟩
  rw [Yields] at found
  rw [readText, runOn, run_bind, found]
  dsimp only
  cases text? content <;> rfl

theorem runOn_readRecords (isFile : files.read path = .ok content) :
    (readRecords alpha path).runOn files =
      ((match text? content with
        | some text => .ok (Records.parse text).records
        | none => .error (.inaccessible path)), ⟨files, []⟩) := by
  have run := runOn_readText isFile
  rw [runOn] at run
  rw [readRecords, runOn, run_bind, run]
  cases text? content <;> rfl

/-- A file of records is read as the records of its lines exactly if all its lines are
text, and is inaccessible exactly if one of them is not. -/
theorem runOn_readRecords_iff (isFile : files.read path = .ok content) :
    ((readRecords alpha path).runOn files =
        (.ok ((byteLines content.data.toList).filterMap (Records.recordOf? alpha)),
          ⟨files, []⟩) ↔
      ∀ line ∈ byteLines content.data.toList, IsEncoded line) ∧
      ((readRecords alpha path).runOn files = (.error (.inaccessible path), ⟨files, []⟩) ↔
        ∃ line ∈ byteLines content.data.toList, ¬IsEncoded line) := by
  have isText := isEncoded_iff_byteLines.symm.trans (@isEncoded_data_iff content)
  have isNoText : (∃ line ∈ byteLines content.data.toList, ¬IsEncoded line) ↔
      ¬(text? content).isSome = true := by
    simp only [← isText, not_forall, exists_prop]
  rw [isText, isNoText, runOn_readRecords isFile]
  cases read : text? content with
  | none => simp
  | some text => simp [Records.records_parse_of_text read]

def sampleSegment : Segment :=
  ⟨"lec06", 6, none, none, "one"⟩

/-- The line of a record, and a line of the given bytes. -/
def sampleBytes (line : List UInt8) : List UInt8 :=
  encode (Records.encodeLine sampleSegment) ++ line

/-- A file with the line of a record and a line of the given bytes. -/
def sampleFile (line : List UInt8) : FileTree where
  nodes := [(["bank.jsonl"], .file (sampleBytes line).toByteArray)]
  distinct := by simp

theorem read_sampleFile (line : List UInt8) :
    (sampleFile line).read ⟨"bank.jsonl"⟩ = .ok (sampleBytes line).toByteArray := rfl

/-- A line of text that writes no record is passed over. -/
theorem runOn_readRecords_of_noRecord :
    (readRecords Segment ⟨"bank.jsonl"⟩).runOn (sampleFile (encode ['o', 'k'])) =
      (.ok [sampleSegment], ⟨sampleFile (encode ['o', 'k']), []⟩) := by
  have run := (@runOn_readRecords_iff Segment _ _ _ _
    (read_sampleFile (encode ['o', 'k']))).1
  have records : (byteLines (sampleBytes (encode ['o', 'k']))).filterMap
      (Records.recordOf? Segment) = [sampleSegment] := by decide +kernel
  have areTexts : ∀ line ∈ byteLines (sampleBytes (encode ['o', 'k'])), IsEncoded line := by
    decide +kernel
  rw [List.toList_data_toByteArray, records] at run
  exact run.2 areTexts

/-- A line of a single byte that encodes no text takes the record in front of it along. -/
theorem runOn_readRecords_of_noText :
    (byteLines (sampleBytes [0xFF])).filterMap (Records.recordOf? Segment) =
        [sampleSegment] ∧
      (readRecords Segment ⟨"bank.jsonl"⟩).runOn (sampleFile [0xFF]) =
        (.error (.inaccessible ⟨"bank.jsonl"⟩), ⟨sampleFile [0xFF], []⟩) := by
  have noText : text? (sampleBytes [0xFF]).toByteArray = none := by decide +kernel
  refine ⟨by decide +kernel, ?_⟩
  rw [runOn_readRecords (read_sampleFile [0xFF]), noText]

end Job

end LectureQuiz
