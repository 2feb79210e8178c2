import LectureQuiz.Proofs.FileTree.Overlay
import LectureQuiz.Proofs.Lookup

/-!
# Trees with files written again

A stage that is run again writes over the files that it left before. Its tree is told
by the tree that it started from and the files that it wrote, whether they are new or
replace older ones. No folder is ever replaced, so that whatever could be read at
another place still can.
-/

namespace LectureQuiz.FileTree

variable {tree other middle base : FileTree} {place : Location}

/-- The place holds the same file in both trees, or no file in either. -/
def SameFile (tree other : FileTree) (place : Location) : Prop :=
  ∀ content, other.node? place = some (.file content) ↔
    tree.node? place = some (.file content)

namespace SameFile

theorem refl (tree : FileTree) (place : Location) : tree.SameFile tree place :=
  fun _ => Iff.rfl

theorem trans
    (first : tree.SameFile middle place) (second : middle.SameFile other place) :
    tree.SameFile other place :=
  fun content => (second content).trans (first content)

theorem of_node?_eq (same : other.node? place = tree.node? place) :
    tree.SameFile other place :=
  fun content => by rw [same]

end SameFile

theorem Grows.sameFile (grows : tree.Grows other) (place : Location) :
    tree.SameFile other place :=
  fun _ => grows.node?_file_iff

/-- A file that is the same can still be read where no folder is lost. -/
theorem SameFile.read
    {path : Path} {content : ByteArray} (same : tree.SameFile other path.place)
    (keeps : tree.KeepsFolders other) (isRead : tree.read path = .ok content) :
    other.read path = .ok content := by
  have isFile := node?_of_read isRead
  apply read_of_kept isRead keeps
  rw [isFile, (same content).2 isFile]

/-- The trees have the same nodes. -/
def Like (tree other : FileTree) : Prop :=
  ∀ place, tree.node? place = other.node? place

namespace Like

theorem refl (tree : FileTree) : tree.Like tree :=
  fun _ => rfl

theorem trans (first : tree.Like middle) (second : middle.Like other) :
    tree.Like other :=
  fun place => (first place).trans (second place)

theorem symm (like : tree.Like other) : other.Like tree :=
  fun place => (like place).symm

theorem sameFile (like : tree.Like other) (place : Location) :
    tree.SameFile other place :=
  .of_node?_eq (like place).symm

theorem keepsFolders (like : tree.Like other) : tree.KeepsFolders other :=
  fun place isFolder => (like place).symm.trans isFolder

theorem read
    {path : Path} {content : ByteArray} (like : tree.Like other)
    (isRead : tree.read path = .ok content) : other.read path = .ok content :=
  (like.sameFile path.place).read like.keepsFolders isRead

end Like

/-- No folder is lost, and files are changed at most within reach. -/
structure Alters (tree other : FileTree) (reach : Location → Prop) : Prop where
  keepsFolders : tree.KeepsFolders other
  sameFile : ∀ place, ¬reach place → tree.SameFile other place

theorem Alters.trans
    {reach reachMore : Location → Prop} (alters : tree.Alters middle reach)
    (more : middle.Alters other reachMore) :
    tree.Alters other fun place => reach place ∨ reachMore place where
  keepsFolders := alters.keepsFolders.trans more.keepsFolders
  sameFile place outside :=
    (alters.sameFile place fun within => outside (Or.inl within)).trans
      (more.sameFile place fun within => outside (Or.inr within))

/-- The tree is the base with files written, none of them in place of a folder. -/
structure Updates (tree base : FileTree) (writes : Writes) : Prop where
  node?_eq : ∀ place, tree.node? place =
    match writes place with
    | some content => some (.file content)
    | none => base.node? place
  notFolder : ∀ place, writes place ≠ none → base.node? place ≠ some .folder

namespace Updates

variable {writes others : Writes}

theorem refl (tree : FileTree) : tree.Updates tree fun _ => none where
  node?_eq := fun _ => rfl
  notFolder := fun _ => nofun

theorem congr
    (updates : tree.Updates base writes)
    (same : ∀ place, others place = writes place) : tree.Updates base others := by
  rwa [show others = writes from funext same]

theorem node?_of_none
    (updates : tree.Updates base writes) (unwritten : writes place = none) :
    tree.node? place = base.node? place := by
  rw [updates.node?_eq, unwritten]

theorem node?_of_some
    (updates : tree.Updates base writes) {content : ByteArray}
    (written : writes place = some content) :
    tree.node? place = some (.file content) := by
  rw [updates.node?_eq, written]

theorem folder_iff (updates : tree.Updates base writes) :
    tree.node? place = some .folder ↔ base.node? place = some .folder := by
  cases written : writes place with
  | none => rw [updates.node?_of_none written]
  | some content =>
      have notFolder := updates.notFolder place (by rw [written]; exact nofun)
      rw [updates.node?_of_some written]
      exact iff_of_false nofun notFolder

theorem keepsFolders (updates : tree.Updates base writes) :
    base.KeepsFolders tree :=
  fun _ isFolder => updates.folder_iff.2 isFolder

theorem hasFolder
    (updates : tree.Updates base writes) {path : Path} {location : Location}
    (has : base.HasFolder path location) : tree.HasFolder path location :=
  has.of_folders updates.keepsFolders

theorem put
    (updates : tree.Updates base writes) {target : Location}
    (inside : target.isAnchor = false) (notFolder : tree.node? target ≠ some .folder)
    (content : ByteArray) :
    (tree.put target (.file content)).Updates base fun place =>
      if place = target then some content else writes place := by
  constructor
  · intro place
    by_cases same : place = target
    · subst same
      simp only [if_true]
      exact node?_put_self tree _ inside
    · rw [node?_put_of_ne tree _ same, updates.node?_eq]
      simp only [same, if_false]
  · intro place written
    by_cases same : place = target
    · rw [same]
      exact fun isFolder => notFolder (updates.folder_iff.2 isFolder)
    · rw [if_neg same] at written
      exact updates.notFolder place written

/-- Writing what is there already changes nothing. -/
theorem like
    (updates : tree.Updates base writes)
    (there : ∀ place content, writes place = some content →
      base.node? place = some (.file content)) : tree.Like base := by
  intro place
  cases written : writes place with
  | none => exact updates.node?_of_none written
  | some content =>
      rw [updates.node?_of_some written, there place content written]

end Updates

/-- Every file has a name that a file can have, as in every file system. -/
def WellNamed (tree : FileTree) : Prop :=
  ∀ (place : Location) (name : String) (content : ByteArray),
    tree.node? (place ++ [name]) = some (.file content) → IsName name

/-- Names stay proper when all other places keep their files. -/
theorem WellNamed.of_sameFile
    (wellNamed : tree.WellNamed)
    (same : ∀ (place : Location) (name : String),
      IsName name ∨ tree.SameFile other (place ++ [name])) : other.WellNamed := by
  intro place name content isFile
  rcases same place name with isName | sameFile
  · exact isName
  · exact wellNamed place name content ((sameFile content).1 isFile)

theorem mem_nodes_of_isFile
    {content : ByteArray} (isFile : tree.node? place = some (.file content)) :
    (place, .file content) ∈ tree.nodes := by
  rw [node?] at isFile
  split at isFile
  · cases isFile
  · exact (mem_iff_lookup_eq tree.distinct).2 isFile

theorem wellNamed_of_nodes
    (areNames : ∀ place ∈ tree.nodes.map Prod.fst, ∀ name ∈ place.getLast?,
      IsName name) :
    tree.WellNamed := by
  intro place name content isFile
  have member := List.mem_map_of_mem (f := Prod.fst) (mem_nodes_of_isFile isFile)
  exact areNames _ member name (by simp)

/-- A file is written at the place that its path tells, under a name. -/
theorem eq_place_of_target
    {path : Path} (isTarget : tree.target path = .ok place) :
    place = path.place ∧ ∃ inner name, IsName name ∧ place = inner ++ [name] := by
  obtain ⟨_, outer, last, inner, parts, isName, _, walked, rfl⟩ :=
    target_eq_ok.1 isTarget
  have isInner := walk_eq_foldl walked
  rw [List.foldl_append] at isInner
  refine ⟨?_, inner, last, isName, rfl⟩
  rw [Path.place, parts, List.foldl_append, isInner]
  exact (enter_name isName _).symm

end LectureQuiz.FileTree
