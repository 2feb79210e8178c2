import LectureQuiz.FileTree
import LectureQuiz.Proofs.Text.Pieces

namespace LectureQuiz

open LectureQuiz.Text

/-- A name that stands for a file or folder: one part of a path that leads on. -/
structure IsName (name : String) : Prop where
  noSlash : '/' ∉ name.toList
  notIdle : Path.isIdle name = false
  notUp : name ≠ ".."

instance (name : String) : Decidable (IsName name) :=
  decidable_of_iff
    ('/' ∉ name.toList ∧ Path.isIdle name = false ∧ name ≠ "..")
    ⟨fun ⟨noSlash, notIdle, notUp⟩ => ⟨noSlash, notIdle, notUp⟩,
      fun isName => ⟨isName.noSlash, isName.notIdle, isName.notUp⟩⟩

namespace IsName

variable {name : String}

theorem ne_empty (isName : IsName name) : name ≠ "" := by
  have notIdle := isName.notIdle
  rintro rfl
  simp [Path.isIdle] at notIdle

theorem ne_dot (isName : IsName name) : name ≠ "." := by
  have notIdle := isName.notIdle
  rintro rfl
  simp [Path.isIdle] at notIdle

theorem ne_slash (isName : IsName name) : name ≠ "/" := by
  have noSlash := isName.noSlash
  rintro rfl
  simp at noSlash

theorem isAnchor_append (isName : IsName name) (folder : Location) :
    Location.isAnchor (folder ++ [name]) = false := by
  have notRoot : folder ++ [name] ≠ ["/"] := by
    intro same
    have last := congrArg List.getLast? same
    simp at last
    exact isName.ne_slash last
  simp [Location.isAnchor, notRoot, isName.notUp]

end IsName

namespace Path

theorem parts_mk_of_noSlash
    {name : String} (noSlash : '/' ∉ name.toList) :
    (Path.mk name).parts = [name] := by
  simp [parts, pieces_of_not_mem noSlash]

theorem noSlash_of_mem_parts
    {path : Path} {part : String} (member : part ∈ path.parts) :
    '/' ∉ part.toList := by
  obtain ⟨piece, isPiece, rfl⟩ := List.mem_map.1 member
  rw [String.toList_ofList]
  exact not_mem_of_mem_pieces isPiece

theorem not_isAbsolute_name
    {name : String} (noSlash : '/' ∉ name.toList) :
    (Path.mk name).isAbsolute = false := by
  rw [Bool.eq_false_iff]
  intro absolute
  refine noSlash (List.mem_of_head? ?_)
  simpa [isAbsolute] using absolute

/-- The name stands behind the parts of the folder, in place of the empty part
behind a closing slash. -/
theorem parts_join
    (folder : Path) {name : String} (noSlash : '/' ∉ name.toList) :
    ∃ front, (folder.join name).parts = front ++ [name] ∧
      (folder.parts = front ∨ folder.parts = front ++ [""]) := by
  rw [join, not_isAbsolute_name noSlash]
  by_cases isEmpty : folder.text = ""
  · refine ⟨[], ?_, Or.inr ?_⟩
    · simp [isEmpty, parts_mk_of_noSlash noSlash]
    · simp [parts, isEmpty, pieces]
  by_cases closed : folder.text.toList.getLast? = some '/'
  · obtain ⟨outer, whole⟩ := List.getLast?_eq_some_iff.1 closed
    refine ⟨(pieces '/' outer).map String.ofList, ?_, Or.inr ?_⟩
    · simp [isEmpty, parts, whole, pieces_append_separator,
        pieces_of_not_mem noSlash]
    · simp [parts, whole, pieces_append_separator, pieces]
  · refine ⟨folder.parts, ?_, Or.inl rfl⟩
    simp [isEmpty, closed, parts, pieces_append_separator,
      pieces_of_not_mem noSlash]

theorem isAbsolute_join
    (folder : Path) {name : String} (noSlash : '/' ∉ name.toList) :
    (folder.join name).isAbsolute = folder.isAbsolute := by
  rw [join, not_isAbsolute_name noSlash]
  by_cases isEmpty : folder.text = ""
  · have relative : folder.isAbsolute = false := by
      simp [isAbsolute, isEmpty]
    simpa [isEmpty, relative] using not_isAbsolute_name noSlash
  · have starts (rest : String) :
        (folder.text ++ rest).toList.head? = folder.text.toList.head? := by
      cases text : folder.text.toList with
      | nil => exact absurd (by simpa using text) isEmpty
      | cons first others => simp [text]
    by_cases closed : folder.text.toList.getLast? = some '/'
    · simp only [Bool.false_eq_true, if_false, closed, or_true, if_true,
        isAbsolute, starts]
    · simp only [Bool.false_eq_true, if_false, isEmpty, closed, or_self,
        isAbsolute, String.append_assoc, starts]

/-- What stands in front of every name in the folder. -/
def front (folder : Path) : String :=
  if folder.text = "" ∨ folder.text.toList.getLast? = some '/' then folder.text
  else folder.text ++ "/"

theorem join_eq_front (folder : Path) {name : String} (noSlash : '/' ∉ name.toList) :
    folder.join name = ⟨folder.front ++ name⟩ := by
  rw [join, not_isAbsolute_name noSlash, if_neg Bool.false_ne_true, front]
  split <;> rfl

theorem join_inj
    {folder : Path} {name other : String} (noSlash : '/' ∉ name.toList)
    (otherNoSlash : '/' ∉ other.toList) :
    folder.join name = folder.join other ↔ name = other := by
  rw [join_eq_front folder noSlash, join_eq_front folder otherNoSlash, Path.mk.injEq,
    String.append_right_inj]

theorem ne_join
    (folder : Path) {name : String} (noSlash : '/' ∉ name.toList) (notEmpty : name ≠ "") :
    folder ≠ folder.join name := by
  intro same
  have lengths : folder.text.length = (folder.join name).text.length :=
    congrArg (·.text.length) same
  have named : 0 < name.length := Nat.pos_of_ne_zero fun isEmpty =>
    notEmpty (String.length_eq_zero_iff.1 isEmpty)
  rw [join_eq_front folder noSlash, front] at lengths
  split at lengths
  · rw [String.length_append] at lengths
    omega
  · rw [String.length_append, String.length_append] at lengths
    omega

end Path

end LectureQuiz
