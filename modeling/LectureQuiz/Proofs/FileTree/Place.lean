import LectureQuiz.Proofs.FileTree.Folder

namespace LectureQuiz

/-- The location that a part leads to. -/
def Location.enter (location : Location) (part : String) : Location :=
  if Path.isIdle part then location
  else if part = ".." then location.up
  else location ++ [part]

/-- The location that the text of the path tells. -/
def Path.place (path : Path) : Location :=
  path.parts.foldl Location.enter (FileTree.startOf path)

namespace FileTree

variable {tree : FileTree}

theorem walk_eq_foldl
    {location target : Location} {parts : List String}
    (walked : tree.walk location parts = .ok target) :
    target = parts.foldl Location.enter location := by
  induction parts generalizing location with
  | nil => exact (Except.ok.inj walked).symm
  | cons part rest inductionHypothesis =>
      rw [walk_cons_of_folder (node?_of_walk_cons walked)] at walked
      rw [List.foldl_cons, Location.enter]
      by_cases idle : Path.isIdle part = true
      · rw [if_pos idle] at walked ⊢
        exact inductionHypothesis walked
      rw [if_neg idle] at walked ⊢
      by_cases up : part = ".."
      · rw [if_pos up] at walked ⊢
        exact inductionHypothesis walked
      rw [if_neg up] at walked ⊢
      by_cases long : maxNameBytes < part.utf8ByteSize
      · rw [if_pos long] at walked
        exact absurd walked nofun
      · rw [if_neg long] at walked
        exact inductionHypothesis walked

theorem locate_eq_place
    {path : Path} {location : Location} (located : tree.locate path = .ok location) :
    location = path.place := by
  rw [locate, bind_eq_ok] at located
  obtain ⟨_, _, walked⟩ := located
  exact walk_eq_foldl walked

theorem HasFolder.eq_place
    {path : Path} {location : Location} (has : tree.HasFolder path location) :
    location = path.place := by
  have whole := walk_eq_foldl has
  rw [List.foldl_append] at whole
  exact whole

theorem enter_name {name : String} (isName : IsName name) (location : Location) :
    location.enter name = location ++ [name] := by
  simp [Location.enter, isName.notIdle, isName.notUp]

theorem place_join (folder : Path) {name : String} (isName : IsName name) :
    (folder.join name).place = folder.place ++ [name] := by
  have start : startOf (folder.join name) = startOf folder := by
    rw [startOf, startOf, Path.isAbsolute_join folder isName.noSlash]
  have empty (location : Location) : location.enter "" = location := rfl
  obtain ⟨front, parts, same | closed⟩ := Path.parts_join folder isName.noSlash
  · rw [Path.place, Path.place, parts, start, same, List.foldl_append]
    exact enter_name isName _
  · rw [Path.place, Path.place, parts, start, closed, List.foldl_append,
      List.foldl_append, List.foldl_cons, List.foldl_cons, empty]
    exact enter_name isName _

theorem node?_of_at?
    {path : Path} {node : Node} (there : tree.at? path = .ok node) :
    tree.node? path.place = some node := by
  rw [at?, bind_eq_ok] at there
  obtain ⟨location, located, found⟩ := there
  rw [← locate_eq_place located]
  split at found
  · rename_i isNode
    rw [isNode]
    exact congrArg some (Except.ok.inj found)
  · exact absurd found nofun

theorem node?_of_isFolder
    {path : Path} (isFolder : tree.isFolder path = true) :
    tree.node? path.place = some .folder := by
  rw [FileTree.isFolder] at isFolder
  split at isFolder
  · exact node?_of_at? ‹_›
  · exact absurd isFolder nofun

theorem node?_of_read
    {path : Path} {content : ByteArray} (isRead : tree.read path = .ok content) :
    tree.node? path.place = some (.file content) := by
  rw [read, bind_eq_ok] at isRead
  obtain ⟨node, there, isFile⟩ := isRead
  cases node with
  | folder => exact absurd isFile nofun
  | file bytes => rw [node?_of_at? there, Except.ok.inj isFile]

end FileTree

namespace Path

/-- The place is the folder itself, or names of files and folders lead from it to the
place. The ways up and to the root lead out of every folder. -/
def Encloses (folder : Path) (place : Location) : Prop :=
  ∃ names : List String, place = folder.place ++ names ∧
    ∀ name ∈ names, name ≠ ".." ∧ name ≠ "/"

instance (folder : Path) (place : Location) : Decidable (folder.Encloses place) :=
  decidable_of_iff (folder.place <+: place ∧
    ∀ name ∈ place.drop folder.place.length, name ≠ ".." ∧ name ≠ "/") <| by
  constructor
  · intro inside
    rcases inside with ⟨⟨names, rfl⟩, lead⟩
    rw [List.drop_left] at lead
    exact ⟨names, rfl, lead⟩
  · intro encloses
    rcases encloses with ⟨names, rfl, lead⟩
    rw [List.drop_left]
    exact ⟨List.prefix_append _ _, lead⟩

theorem encloses_append
    (folder : Path) {name : String} (isName : IsName name) :
    folder.Encloses (folder.place ++ [name]) :=
  ⟨[name], rfl, List.forall_mem_singleton.2 ⟨isName.notUp, isName.ne_slash⟩⟩

theorem encloses_of_extension
    (folder : Path) {name extension : String}
    (hasExtension : nameExtension? name = some extension) (notEmpty : extension ≠ "") :
    folder.Encloses (folder.place ++ [name]) := by
  have atUp : nameExtension? ".." = some "" := rfl
  have atRoot : nameExtension? "/" = none := rfl
  refine ⟨[name], rfl, List.forall_mem_singleton.2 ⟨?_, ?_⟩⟩
  · intro isUp
    rw [isUp, atUp] at hasExtension
    exact notEmpty (Option.some.inj hasExtension).symm
  · intro isRoot
    rw [isRoot, atRoot] at hasExtension
    exact absurd hasExtension nofun

/-- No names lead from one of the folders to the other one, and they are different. -/
def Apart (first second : Path) : Prop :=
  ¬first.Encloses second.place ∧ ¬second.Encloses first.place

instance (first second : Path) : Decidable (first.Apart second) :=
  inferInstanceAs (Decidable (_ ∧ _))

theorem Apart.outside
    {first second : Path} (apart : first.Apart second) {place : Location}
    (inside : first.Encloses place) : ¬second.Encloses place := by
  intro also
  rcases inside with ⟨names, rfl, lead⟩
  rcases also with ⟨others, same, leadToo⟩
  rcases List.append_eq_append_iff.1 same with ⟨between, isSecond, rfl⟩ |
    ⟨between, isFirst, rfl⟩
  · exact apart.1 ⟨between, isSecond, fun name member =>
      lead name (List.mem_append_left _ member)⟩
  · exact apart.2 ⟨between, isFirst, fun name member =>
      leadToo name (List.mem_append_left _ member)⟩

example : (Path.mk ".").Apart ⟨"../raw"⟩ ∧ ¬(Path.mk ".").Apart ⟨"./raw"⟩ := by
  decide

end Path

namespace FileTree

variable {tree : FileTree}

/-- Nothing lies in the place of the folder, whether the folder is there or
not. -/
def IsVacant (tree : FileTree) (folder : Path) : Prop :=
  ∀ name, IsName name → tree.node? (folder.place ++ [name]) = none

/-- Nothing lies in the place of the folder, and the folder is empty once it has
been created. -/
structure IsFresh (tree : FileTree) (folder : Path) : Prop where
  vacant : tree.IsVacant folder
  created : ∀ other, tree.createFolders folder = (.ok (), other) →
    other.IsVacant folder

theorem pathExists_of_absent
    {folder : Path} {name : String} (isName : IsName name)
    (absent : tree.node? (folder.place ++ [name]) = none) :
    tree.pathExists (folder.join name) = false := by
  rw [pathExists]
  cases found : tree.at? (folder.join name) with
  | error fault => rfl
  | ok node =>
      have there := node?_of_at? found
      rw [place_join folder isName, absent] at there
      exact absurd there nofun

end FileTree

end LectureQuiz
