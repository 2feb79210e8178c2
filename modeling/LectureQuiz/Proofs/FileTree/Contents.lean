import Mathlib.Data.List.Sort
import Mathlib.Data.String.Basic
import LectureQuiz.Proofs.FileTree.Entry
import LectureQuiz.Proofs.FileTree.Place
import LectureQuiz.Proofs.Lookup

namespace LectureQuiz.FileTree

/-- The files in the folder that have the extension, by increasing names. -/
structure Holds (tree : FileTree) (folder : Path) (extension : String)
    (files : List (String × ByteArray)) : Prop where
  increasing : (files.map Prod.fst).Pairwise (· < ·)
  mem_iff : ∀ name content, (name, content) ∈ files ↔
    nameExtension? name = some extension ∧
      tree.node? (folder.place ++ [name]) = some (.file content)

/-- The files in the folder that have the extension and can be read by their paths, by
increasing names. -/
def filesIn (tree : FileTree) (folder : Path) (extension : String) :
    List (String × ByteArray) :=
  (tree.fileNames folder.place extension).filterMap fun name =>
    (tree.read (folder.join name)).toOption.map (name, ·)

variable {tree : FileTree} {folder : Path} {location : Location}
  {extension name : String}

theorem child_eq_some {place : Location} {found node : Node} :
    (match place.getLast? with
      | some name => if place.dropLast = location then some (name, found) else none
      | none => none) = some (name, node) ↔
      place = location ++ [name] ∧ found = node := by
  constructor
  · intro chosen
    split at chosen
    · rename_i last isLast
      split at chosen
      · rename_i isHere
        obtain ⟨rfl, rfl⟩ := Prod.mk.inj (Option.some.inj chosen)
        obtain ⟨front, rfl⟩ := List.getLast?_eq_some_iff.1 isLast
        rw [List.dropLast_concat] at isHere
        exact ⟨by rw [isHere], rfl⟩
      · exact absurd chosen nofun
    · exact absurd chosen nofun
  · rintro ⟨rfl, rfl⟩
    simp

theorem mem_children {node : Node} :
    (name, node) ∈ tree.children location ↔
      (location ++ [name], node) ∈ tree.nodes := by
  simp only [children, List.mem_filterMap, Prod.exists]
  constructor
  · rintro ⟨_, _, member, chosen⟩
    obtain ⟨rfl, rfl⟩ := child_eq_some.1 chosen
    exact member
  · intro member
    exact ⟨_, _, member, child_eq_some.2 ⟨rfl, rfl⟩⟩

theorem nodup_children (tree : FileTree) (location : Location) :
    ((tree.children location).map Prod.fst).Nodup := by
  have distinct := List.pairwise_map.1 tree.distinct
  rw [children, List.Nodup, List.pairwise_map, List.pairwise_filterMap]
  refine distinct.imp ?_
  rintro ⟨place, found⟩ ⟨otherPlace, otherFound⟩ apart ⟨name, node⟩ isChild
    ⟨otherName, otherNode⟩ isOtherChild same
  have ⟨isHere, _⟩ := child_eq_some.1 isChild
  have ⟨isOtherHere, _⟩ := child_eq_some.1 isOtherChild
  have sameName : name = otherName := same
  exact apart (isHere.trans (sameName ▸ isOtherHere.symm))

theorem not_isAnchor_of_extension
    (hasExtension : nameExtension? name = some extension)
    (notEmpty : extension ≠ "") (location : Location) :
    Location.isAnchor (location ++ [name]) = false := by
  rw [Bool.eq_false_iff, Location.isAnchor, ne_eq, Bool.or_eq_true, not_or]
  constructor
  · intro allUp
    have isUp : name = ".." := by
      simpa using List.all_eq_true.1 allUp name (by simp)
    rw [isUp] at hasExtension
    exact notEmpty (Option.some.inj hasExtension).symm
  · intro isRoot
    have last := congrArg List.getLast? (beq_iff_eq.1 isRoot)
    rw [List.getLast?_concat] at last
    rw [Option.some.inj last] at hasExtension
    have noExtension : nameExtension? "/" = none := rfl
    simp [noExtension] at hasExtension

theorem listed_eq_some {node : Node} {listed : String} :
    (match node with
      | .folder => none
      | .file _ => if nameExtension? name = some extension then some name else none) =
        some listed ↔
      listed = name ∧ nameExtension? name = some extension ∧
        ∃ content, node = .file content := by
  cases node with
  | folder => simp
  | file content =>
      by_cases hasExtension : nameExtension? name = some extension
      · simp [hasExtension, eq_comm]
      · simp [hasExtension]

theorem mem_fileNames (notEmpty : extension ≠ "") :
    name ∈ tree.fileNames location extension ↔
      nameExtension? name = some extension ∧
        ∃ content, tree.node? (location ++ [name]) = some (.file content) := by
  have nodeEq (hasExtension : nameExtension? name = some extension) (node : Node) :
      (name, node) ∈ tree.children location ↔
        tree.node? (location ++ [name]) = some node := by
    rw [mem_children, mem_iff_lookup_eq tree.distinct, node?,
      not_isAnchor_of_extension hasExtension notEmpty location]
    rfl
  simp only [fileNames, List.mem_mergeSort, List.mem_filterMap, Prod.exists]
  constructor
  · rintro ⟨_, _, member, chosen⟩
    obtain ⟨rfl, hasExtension, content, rfl⟩ := listed_eq_some.1 chosen
    exact ⟨hasExtension, content, (nodeEq hasExtension _).1 member⟩
  · rintro ⟨hasExtension, content, there⟩
    exact ⟨name, _, (nodeEq hasExtension _).2 there,
      listed_eq_some.2 ⟨rfl, hasExtension, content, rfl⟩⟩

theorem increasing_fileNames
    (tree : FileTree) (location : Location) (extension : String) :
    (tree.fileNames location extension).Pairwise (· < ·) := by
  have distinct : (tree.fileNames location extension).Nodup := by
    rw [fileNames, (List.mergeSort_perm _ _).nodup_iff, List.Nodup,
      List.pairwise_filterMap]
    refine (List.pairwise_map.1 (nodup_children tree location)).imp ?_
    rintro ⟨name, node⟩ ⟨otherName, otherNode⟩ apart _ chosen _ otherChosen
    obtain ⟨rfl, _⟩ := listed_eq_some.1 chosen
    obtain ⟨rfl, _⟩ := listed_eq_some.1 otherChosen
    exact apart
  have sorted : (tree.fileNames location extension).Pairwise (· ≤ ·) := by
    rw [fileNames]
    exact List.pairwise_mergeSort' (· ≤ ·) _
  exact (sorted.and distinct).imp fun ordered => lt_of_le_of_ne ordered.1 ordered.2

theorem Holds.fileNames_eq
    {files : List (String × ByteArray)}
    (holds : tree.Holds folder extension files) (notEmpty : extension ≠ "") :
    tree.fileNames folder.place extension = files.map Prod.fst := by
  refine (increasing_fileNames tree _ _).eq_of_mem_iff holds.increasing ?_
  intro name
  rw [mem_fileNames notEmpty, List.mem_map]
  constructor
  · rintro ⟨hasExtension, content, there⟩
    exact ⟨(name, content), (holds.mem_iff name content).2 ⟨hasExtension, there⟩, rfl⟩
  · rintro ⟨⟨_, content⟩, member, rfl⟩
    have ⟨hasExtension, there⟩ := (holds.mem_iff _ content).1 member
    exact ⟨hasExtension, content, there⟩

theorem toOption_read_eq_some {path : Path} {content : ByteArray} :
    (tree.read path).toOption = some content ↔ tree.read path = .ok content := by
  cases tree.read path with
  | error fault => exact iff_of_false nofun nofun
  | ok bytes => rw [Except.toOption, Option.some.injEq, Except.ok.injEq]

theorem isFile_eq (tree : FileTree) (path : Path) :
    tree.isFile path = (tree.read path).toOption.isSome := by
  rw [isFile, read]
  cases tree.at? path with
  | error fault => rfl
  | ok node => cases node <;> rfl

theorem mem_filesIn {content : ByteArray} :
    (name, content) ∈ tree.filesIn folder extension ↔
      name ∈ tree.fileNames folder.place extension ∧
        tree.read (folder.join name) = .ok content := by
  simp only [filesIn, List.mem_filterMap, Option.map_eq_some_iff, Prod.mk.injEq,
    toOption_read_eq_some]
  constructor
  · rintro ⟨_, member, _, isRead, rfl, rfl⟩
    exact ⟨member, isRead⟩
  · intro ⟨member, isRead⟩
    exact ⟨name, member, content, isRead, rfl, rfl⟩

theorem increasing_filesIn (tree : FileTree) (folder : Path) (extension : String) :
    (tree.filesIn folder extension).Pairwise fun first second => first.1 < second.1 := by
  rw [filesIn, List.pairwise_filterMap]
  apply (increasing_fileNames tree folder.place extension).imp
  intro name otherName less file isFile other isOther
  obtain ⟨_, _, rfl⟩ := Option.map_eq_some_iff.1 isFile
  obtain ⟨_, _, rfl⟩ := Option.map_eq_some_iff.1 isOther
  exact less

/-- Files by increasing names are told by which of them there are. -/
theorem eq_of_increasing_names
    {files others : List (String × ByteArray)}
    (increasing : files.Pairwise fun first second => first.1 < second.1)
    (othersIncreasing : others.Pairwise fun first second => first.1 < second.1)
    (same : ∀ file, file ∈ files ↔ file ∈ others) : files = others := by
  let before (first second : String × ByteArray) : Prop := first.1 < second.1
  have irreflexive : Std.Irrefl before := ⟨fun _ => lt_irrefl _⟩
  have antisymmetric : Std.Antisymm before :=
    ⟨fun _ _ less more => absurd (less.trans more) (lt_irrefl _)⟩
  exact List.Pairwise.eq_of_mem_iff (r := before) increasing othersIncreasing same

/-- All files are among them when each can be read. -/
theorem Holds.filesIn_eq
    {files : List (String × ByteArray)} (holds : tree.Holds folder extension files)
    (notEmpty : extension ≠ "")
    (readable : ∀ file ∈ files, tree.read (folder.join file.1) = .ok file.2) :
    tree.filesIn folder extension = files := by
  rw [filesIn, holds.fileNames_eq notEmpty, List.filterMap_map]
  calc
    _ = files.filterMap some := by
      apply List.filterMap_congr
      intro file member
      rw [Function.comp_apply, readable file member]
      rfl
    _ = files := List.filterMap_some

end LectureQuiz.FileTree
