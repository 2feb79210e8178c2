import Mathlib.Data.List.Sort
import Mathlib.Data.String.Basic
import LectureQuiz.Document
import LectureQuiz.Proofs.FileTree.Name

/-!
# Documents by their file names

A stage names its files after the ids of documents. When several documents have
one id, the file of the last one is left. The files are then read in the order of
their names, which depends on the extension.
-/

namespace LectureQuiz

open LectureQuiz.Text

/-- A text that stands behind the last dot of a name. -/
structure IsExtension (extension : String) : Prop where
  notEmpty : extension ≠ ""
  noSlash : '/' ∉ extension.toList
  noDot : '.' ∉ extension.toList

/-- The name of a file that is made for the document. -/
def Document.fileName (document : Document) (extension : String) : String :=
  document.videoId ++ "." ++ extension

theorem Document.fileName_toList (document : Document) (extension : String) :
    (document.fileName extension).toList =
      document.videoId.toList ++ '.' :: extension.toList := by
  simp [fileName]

theorem splitName_of_toList
    {name stem extension : String}
    (text : name.toList = stem.toList ++ '.' :: extension.toList)
    (stemNotEmpty : stem ≠ "") (noDot : '.' ∉ extension.toList) :
    splitName name = (stem, some extension) := by
  have stop : ∀ character ∈ extension.toList.reverse, (character != '.') = true := by
    intro character member
    rw [bne_iff_ne]
    rintro rfl
    exact noDot (List.mem_reverse.1 member)
  have reversed : name.toList.reverse =
      extension.toList.reverse ++ '.' :: stem.toList.reverse := by
    simp [text]
  have dropped : name.toList.reverse.dropWhile (· != '.') =
      '.' :: stem.toList.reverse := by
    rw [reversed, List.dropWhile_append_of_pos stop]
    rfl
  have taken : name.toList.reverse.takeWhile (· != '.') =
      extension.toList.reverse := by
    rw [reversed, List.takeWhile_append_of_pos stop]
    simp
  obtain ⟨last, others, stemText⟩ : ∃ last others,
      stem.toList.reverse = last :: others := by
    cases stemText : stem.toList.reverse with
    | nil => exact absurd (by simpa using stemText) stemNotEmpty
    | cons last others => exact ⟨last, others, rfl⟩
  rw [splitName, dropped, taken, stemText]
  simp [← stemText]

/-- The stem of a name that has an extension is a part of it, and not empty. -/
theorem splitName_eq_some
    {name stem extension : String} (cut : splitName name = (stem, some extension)) :
    stem ≠ "" ∧ stem.toList <:+: name.toList := by
  rw [splitName] at cut
  split at cut
  · rename_i dot before more dropped
    obtain ⟨rfl, _⟩ := Prod.mk.inj cut
    have part := List.dropWhile_suffix (· != '.') (l := name.toList.reverse)
    rw [dropped] at part
    refine ⟨by simp, ?_⟩
    rw [String.toList_ofList, ← List.reverse_infix, List.reverse_reverse]
    exact (List.suffix_cons dot _).isInfix.trans part.isInfix
  · exact absurd (Prod.mk.inj cut).2 nofun

theorem Document.splitName_fileName
    {document : Document} {extension : String} (named : document.videoId ≠ "")
    (isExtension : IsExtension extension) :
    splitName (document.fileName extension) = (document.videoId, some extension) :=
  splitName_of_toList (document.fileName_toList extension) named isExtension.noDot

/-- The file of a document without an id has no extension. -/
theorem Document.nameExtension?_fileName
    (document : Document) {extension : String} (isExtension : IsExtension extension) :
    nameExtension? (document.fileName extension) =
      if document.videoId = "" then none else some extension := by
  by_cases unnamed : document.videoId = ""
  · have reversed : (document.fileName extension).toList.reverse =
        extension.toList.reverse ++ ['.'] := by
      simp [document.fileName_toList, unnamed]
    have dropped :
        (document.fileName extension).toList.reverse.dropWhile (· != '.') =
          ['.'] := by
      rw [reversed, List.dropWhile_append_of_pos]
      · rfl
      · intro character member
        rw [bne_iff_ne]
        rintro rfl
        exact isExtension.noDot (List.mem_reverse.1 member)
    rw [if_pos unnamed, nameExtension?, splitName, dropped]
  · rw [if_neg unnamed, nameExtension?, splitName_fileName unnamed isExtension]

theorem Document.fileName_inj {first second : Document} {extension : String} :
    first.fileName extension = second.fileName extension ↔
      first.videoId = second.videoId := by
  rw [← String.toList_inj, fileName_toList, fileName_toList,
    List.append_cancel_right_eq, String.toList_inj]

theorem Document.isName_fileName
    {document : Document} {extension : String}
    (noSlash : '/' ∉ document.videoId.toList)
    (isExtension : IsExtension extension) :
    IsName (document.fileName extension) := by
  have text := document.fileName_toList extension
  obtain ⟨front, last, extensionText⟩ : ∃ front last,
      extension.toList = front ++ [last] := by
    rcases List.eq_nil_or_concat extension.toList with isNil | ⟨front, last, whole⟩
    · exact absurd (by simpa using isNil) isExtension.notEmpty
    · exact ⟨front, last, by rw [whole, List.concat_eq_append]⟩
  have notDot : last ≠ '.' := by
    rintro rfl
    exact isExtension.noDot (by simp [extensionText])
  have differs (other : String) (ending : other.toList.getLast? = none ∨
      other.toList.getLast? = some '.') : document.fileName extension ≠ other := by
    rintro rfl
    have whole : (document.fileName extension).toList =
        (document.videoId.toList ++ '.' :: front) ++ [last] := by
      simp [text, extensionText]
    rw [whole, List.getLast?_concat] at ending
    simp [notDot] at ending
  refine ⟨by simp [text, noSlash, isExtension.noSlash], ?_, differs ".." (Or.inr rfl)⟩
  simp [Path.isIdle, differs "" (Or.inl rfl), differs "." (Or.inr rfl)]

/-- The last document with the id. -/
def latest? (documents : List Document) (id : String) : Option Document :=
  documents.reverse.find? (·.videoId == id)

/-- The documents that no later one has the id of. -/
def lastOccurrences : List Document → List Document
  | [] => []
  | document :: rest =>
      if rest.any (·.videoId == document.videoId) then lastOccurrences rest
      else document :: lastOccurrences rest

theorem latest?_cons (document : Document) (rest : List Document) (id : String) :
    latest? (document :: rest) id =
      (latest? rest id).or (if document.videoId = id then some document else none) := by
  rw [latest?, List.reverse_cons, List.find?_append, ← latest?]
  by_cases same : document.videoId = id <;> simp [same]

theorem latest?_eq_none_iff {documents : List Document} {id : String} :
    latest? documents id = none ↔ ∀ document ∈ documents, document.videoId ≠ id := by
  simp [latest?, List.find?_eq_none]

theorem videoId_of_latest?
    {documents : List Document} {id : String} {document : Document}
    (found : latest? documents id = some document) : document.videoId = id := by
  simpa using List.find?_some found

theorem mem_lastOccurrences {documents : List Document} {document : Document} :
    document ∈ lastOccurrences documents ↔
      latest? documents document.videoId = some document := by
  induction documents with
  | nil => simp [lastOccurrences, latest?]
  | cons first rest inductionHypothesis =>
      rw [lastOccurrences, latest?_cons]
      by_cases later : rest.any (·.videoId == first.videoId) = true
      · rw [if_pos later, inductionHypothesis]
        cases found : latest? rest document.videoId with
        | some last => simp
        | none =>
            obtain ⟨other, member, same⟩ := List.any_eq_true.1 later
            have apart : first.videoId ≠ document.videoId := fun equal =>
              latest?_eq_none_iff.1 found other member
                ((beq_iff_eq.1 same).trans equal)
            simp [apart]
      · rw [if_neg later, List.mem_cons, inductionHypothesis]
        have noLater : latest? rest first.videoId = none :=
          latest?_eq_none_iff.2 fun other member same =>
            later (List.any_eq_true.2 ⟨other, member, beq_iff_eq.2 same⟩)
        cases found : latest? rest document.videoId with
        | some last =>
            have isOther : document ≠ first := by
              rintro rfl
              exact absurd (noLater.symm.trans found) nofun
            simp [isOther]
        | none =>
            by_cases same : first.videoId = document.videoId
            · simp [same, eq_comm]
            · have isOther : document ≠ first := fun equal => same (equal ▸ rfl)
              simp [same, isOther]

theorem nodup_lastOccurrences (documents : List Document) :
    ((lastOccurrences documents).map Document.videoId).Nodup := by
  induction documents with
  | nil => exact .nil
  | cons first rest inductionHypothesis =>
      rw [lastOccurrences]
      split
      · exact inductionHypothesis
      · rename_i noLater
        refine List.nodup_cons.2 ⟨?_, inductionHypothesis⟩
        intro isThere
        obtain ⟨other, member, same⟩ := List.mem_map.1 isThere
        have isLast := mem_lastOccurrences.1 member
        have isLater : other ∈ rest :=
          List.mem_reverse.1 (List.mem_of_find?_eq_some isLast)
        exact noLater (List.any_eq_true.2 ⟨other, isLater, beq_iff_eq.2 same⟩)

/-- The last documents in the order of their file names. -/
def byFileName (extension : String) (documents : List Document) : List Document :=
  (lastOccurrences documents).mergeSort fun first second =>
    first.fileName extension ≤ second.fileName extension

variable {extension : String} {documents : List Document}

theorem mem_byFileName {document : Document} :
    document ∈ byFileName extension documents ↔
      latest? documents document.videoId = some document := by
  rw [byFileName, List.mem_mergeSort, mem_lastOccurrences]

theorem byFileName_singleton (extension : String) (document : Document) :
    byFileName extension [document] = [document] := by
  simp [byFileName, lastOccurrences]

/-- Of two documents with one id the later one is left. -/
theorem byFileName_pair
    {first second : Document} (same : first.videoId = second.videoId)
    (extension : String) : byFileName extension [first, second] = [second] := by
  simp [byFileName, lastOccurrences, same]

theorem mem_of_mem_byFileName
    {document : Document} (member : document ∈ byFileName extension documents) :
    document ∈ documents :=
  List.mem_reverse.1 (List.mem_of_find?_eq_some (mem_byFileName.1 member))

theorem increasing_byFileName (extension : String) (documents : List Document) :
    (byFileName extension documents).Pairwise fun first second =>
      first.fileName extension < second.fileName extension := by
  have sorted : (byFileName extension documents).Pairwise fun first second =>
      first.fileName extension ≤ second.fileName extension := by
    have transitive (first second third : Document)
        (low : decide (first.fileName extension ≤ second.fileName extension) = true)
        (high : decide (second.fileName extension ≤ third.fileName extension) = true) :
        decide (first.fileName extension ≤ third.fileName extension) = true :=
      decide_eq_true ((of_decide_eq_true low).trans (of_decide_eq_true high))
    have total (first second : Document) :
        (decide (first.fileName extension ≤ second.fileName extension) ||
          decide (second.fileName extension ≤ first.fileName extension)) = true := by
      simpa using le_total (first.fileName extension) (second.fileName extension)
    exact (List.pairwise_mergeSort transitive total _).imp of_decide_eq_true
  have distinct : (byFileName extension documents).Pairwise fun first second =>
      first.fileName extension ≠ second.fileName extension := by
    refine ((List.mergeSort_perm _ _).pairwise_iff fun apart => Ne.symm apart).2 ?_
    refine (List.pairwise_map.1 (nodup_lastOccurrences documents)).imp ?_
    exact fun apart same => apart (Document.fileName_inj.1 same)
  exact (sorted.and distinct).imp fun ordered => lt_of_le_of_ne ordered.1 ordered.2

/-- Each document is the last one with its id when the ids are different. -/
theorem latest?_eq_some_iff_of_nodup
    (distinct : (documents.map Document.videoId).Nodup) {document : Document} :
    latest? documents document.videoId = some document ↔ document ∈ documents := by
  constructor
  · intro found
    exact List.mem_reverse.1 (List.mem_of_find?_eq_some found)
  · intro member
    cases found : latest? documents document.videoId with
    | none => exact absurd rfl (latest?_eq_none_iff.1 found document member)
    | some last =>
        have isLast := List.mem_reverse.1 (List.mem_of_find?_eq_some found)
        have same := List.inj_on_of_nodup_map distinct isLast member
          (videoId_of_latest? found)
        rw [same]

/-- Documents that are the last ones already are only put into another order. -/
theorem byFileName_byFileName (first second : String) (documents : List Document) :
    byFileName first (byFileName second documents) = byFileName first documents := by
  have distinct : ((byFileName second documents).map Document.videoId).Nodup := by
    refine (((List.mergeSort_perm _ _).map Document.videoId).nodup_iff).2 ?_
    exact nodup_lastOccurrences documents
  let before (left right : Document) : Prop :=
    left.fileName first < right.fileName first
  have : Std.Irrefl before := ⟨fun _ => lt_irrefl _⟩
  have : Std.Antisymm before :=
    ⟨fun _ _ less more => absurd (less.trans more) (lt_irrefl _)⟩
  have sorted := increasing_byFileName first (byFileName second documents)
  refine List.Pairwise.eq_of_mem_iff (r := before) sorted
    (increasing_byFileName first documents) fun document => ?_
  rw [mem_byFileName, latest?_eq_some_iff_of_nodup distinct, mem_byFileName,
    mem_byFileName]

end LectureQuiz
