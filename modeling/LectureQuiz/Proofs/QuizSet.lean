import LectureQuiz.Proofs.FileTree.Name
import LectureQuiz.Proofs.Json.Printable
import LectureQuiz.Proofs.Json.Record
import LectureQuiz.QuizSet.Pack

namespace LectureQuiz

open LectureQuiz.Text

/-- A name that stands for a file and does not start with a dot. -/
structure IsOpenName (name : String) : Prop where
  noSlash : '/' ∉ name.toList
  starts : ∃ first rest, name.toList = first :: rest ∧ first ≠ '.'

namespace IsOpenName

variable {name : String}

theorem isName (isOpen : IsOpenName name) : IsName name := by
  obtain ⟨first, rest, text, notDot⟩ := isOpen.starts
  have differs (other : String) (starts : other.toList.head? = none ∨
      other.toList.head? = some '.') : name ≠ other := by
    rintro rfl
    rw [text] at starts
    simp [notDot] at starts
  refine ⟨isOpen.noSlash, ?_, differs ".." (Or.inr rfl)⟩
  simp [Path.isIdle, differs "" (Or.inl rfl), differs "." (Or.inr rfl)]

end IsOpenName

theorem draftName_toList (name : String) :
    (draftName name).toList = '.' :: (name.toList ++ ".tmp".toList) := by
  simp [draftName, toString]

theorem IsOpenName.ne_draftName
    {name : String} (isOpen : IsOpenName name) (other : String) :
    name ≠ draftName other := by
  obtain ⟨first, rest, text, notDot⟩ := isOpen.starts
  intro same
  rw [same, draftName_toList] at text
  exact notDot (List.cons.inj text).1.symm

theorem isName_draftName
    {name : String} (noSlash : '/' ∉ name.toList) : IsName (draftName name) := by
  have text := draftName_toList name
  have differs (other : String) (short : other.toList.length < 4) :
      draftName name ≠ other := by
    intro same
    rw [← same, text] at short
    simp at short
    omega
  refine ⟨?_, ?_, differs ".." (by decide)⟩
  · simp [text, noSlash]
  · simp [Path.isIdle, differs "" (by decide), differs "." (by decide)]

namespace SetMode

theorem fileName_toList (mode : SetMode) (module : UInt32) :
    (mode.fileName module).toList =
      mode.name.toList ++ ('_' :: 'm' ::
        (Nat.toDigits 10 module.toNat ++ ".jsonl".toList)) := by
  simp [fileName, toString]

theorem isOpenName_fileName (mode : SetMode) (module : UInt32) :
    IsOpenName (mode.fileName module) := by
  have text := fileName_toList mode module
  have digits : '/' ∉ Nat.toDigits 10 module.toNat := by
    intro member
    exact absurd (Json.isDigit_toDigits _ _ member) (by decide)
  refine ⟨?_, ?_⟩
  · cases mode <;> simp [text, name, digits]
  · cases mode <;> exact ⟨_, _, text, by decide⟩

theorem fileName_inj {mode other : SetMode} {module otherModule : UInt32} :
    mode.fileName module = other.fileName otherModule ↔
      mode = other ∧ module = otherModule := by
  refine ⟨?_, by rintro ⟨rfl, rfl⟩; rfl⟩
  intro same
  have texts := congrArg String.toList same
  rw [fileName_toList, fileName_toList] at texts
  have sameMode : mode = other := by
    have firstChars := congrArg List.head? texts
    cases mode <;> cases other <;> simp_all [name]
  subst sameMode
  have digits : Nat.toDigits 10 module.toNat =
      Nat.toDigits 10 otherModule.toNat := by
    simpa using texts
  have numbers : module.toNat = otherModule.toNat := by
    rw [← @Nat.ofDigitChars_ten_toDigits module.toNat, digits,
      Nat.ofDigitChars_ten_toDigits]
  exact ⟨rfl, UInt32.toNat_inj.1 numbers⟩

theorem fileName_ne_manifest (mode : SetMode) (module : UInt32) :
    mode.fileName module ≠ Manifest.fileName := by
  intro same
  have texts := congrArg String.toList same
  rw [fileName_toList] at texts
  cases mode <;> simp [name, Manifest.fileName] at texts

end SetMode

theorem Manifest.isOpenName_fileName : IsOpenName Manifest.fileName :=
  ⟨by decide, _, _, rfl, by decide⟩

namespace SetEntry

/-- The entry is of an earlier module, or of the same one in an earlier mode. -/
def Before (first second : SetEntry) : Prop :=
  first.module < second.module ∨
    (first.module = second.module ∧ first.mode.rank < second.mode.rank)

theorem precedes_iff {first second : SetEntry} :
    first.precedes second = true ↔
      first.module < second.module ∨
        (first.module = second.module ∧ first.mode.rank ≤ second.mode.rank) := by
  simp [precedes]

theorem precedes_trans
    (first second third : SetEntry) (low : first.precedes second = true)
    (high : second.precedes third = true) : first.precedes third = true := by
  rw [precedes_iff] at *
  rcases low with below | ⟨same, lowRank⟩
  · rcases high with above | ⟨same, _⟩
    · exact Or.inl (UInt32.lt_trans below above)
    · exact Or.inl (same ▸ below)
  · rw [same]
    exact high.imp_right fun ⟨also, highRank⟩ => ⟨also, lowRank.trans highRank⟩

theorem precedes_total (first second : SetEntry) :
    (first.precedes second || second.precedes first) = true := by
  rw [Bool.or_eq_true, precedes_iff, precedes_iff]
  rcases Nat.lt_trichotomy first.module.toNat second.module.toNat with
    below | sameNumber | above
  · exact Or.inl (Or.inl below)
  · have same := UInt32.toNat_inj.1 sameNumber
    exact (Nat.le_total first.mode.rank second.mode.rank).imp
      (fun rank => Or.inr ⟨same, rank⟩) (fun rank => Or.inr ⟨same.symm, rank⟩)
  · exact Or.inr (Or.inl above)

/-- Sorting puts entries of different sets into strictly increasing order. -/
theorem pairwise_before_mergeSort
    {entries : List SetEntry}
    (different : entries.Pairwise fun first second =>
      ¬(first.module = second.module ∧ first.mode = second.mode)) :
    (entries.mergeSort precedes).Pairwise Before := by
  have sorted := List.pairwise_mergeSort precedes_trans precedes_total entries
  have apart := ((List.mergeSort_perm entries precedes).pairwise_iff
    (fun {first second} differ same =>
      differ ⟨same.1.symm, same.2.symm⟩)).2 different
  refine (sorted.and apart).imp ?_
  rintro first second ⟨ordered, differ⟩
  refine (precedes_iff.1 ordered).imp_right ?_
  rintro ⟨same, rank⟩
  refine ⟨same, Nat.lt_of_le_of_ne rank ?_⟩
  intro sameRank
  refine differ ⟨same, ?_⟩
  cases firstMode : first.mode <;> cases secondMode : second.mode <;>
    simp_all [SetMode.rank]

end SetEntry

namespace SetEntry

theorem ofJson?_toJson (entry : SetEntry) : ofJson? entry.toJson = some entry := by
  have mode : Json.named? SetMode.ofName? (.string entry.mode.name) =
      some entry.mode := SetMode.ofName?_name entry.mode
  simp [ofJson?, toJson, Json.fields?, fieldNames, Fields.required?, List.lookup_cons,
    mode]

theorem isPlain_toJson (entry : SetEntry) : entry.toJson.isPlain = true := by
  simp [toJson, Json.isPlain, Json.plainMembers]

end SetEntry

namespace Manifest

theorem ofJson?_toJson (manifest : Manifest) :
    ofJson? manifest.toJson = some manifest := by
  have sets := Json.list?_array SetEntry.ofJson?_toJson manifest.sets
  simp [ofJson?, toJson, Json.fields?, Fields.required?, sets]

theorem isPlain_toJson (manifest : Manifest) : manifest.toJson.isPlain = true := by
  have sets : (Json.array (manifest.sets.map SetEntry.toJson)).isPlain = true :=
    Json.plainElements_map SetEntry.isPlain_toJson manifest.sets
  simp [toJson, Json.isPlain, Json.plainMembers] at sets ⊢
  exact sets

end Manifest

end LectureQuiz
