import LectureQuiz.Proofs.FileTree.Folder

/-!
# Files in folders

What the operations on files do at the path of a name in a folder, told by the
location of the folder: each succeeds under a condition on the node at the name,
and changes the tree there only.
-/

namespace LectureQuiz

/-- The name in the folder stays within the bounds of names and paths. -/
def Path.Fits (folder : Path) (name : String) : Prop :=
  FileTree.checkPath (folder.join name) = .ok () ∧
    name.utf8ByteSize ≤ FileTree.maxNameBytes

namespace FileTree

variable {tree : FileTree} {folder : Path} {location : Location} {name : String}

theorem checkPath_eq_ok {path : Path} :
    checkPath path = .ok () ↔ '\x00' ∉ path.text.toList ∧
      path.text.utf8ByteSize ≤ maxPathBytes ∧ path.text ≠ "" := by
  rw [checkPath]
  by_cases null : path.text.toList.contains '\x00' = true
  · simp only [List.contains_iff_mem] at null
    simp [null]
  rw [if_neg null]
  simp only [List.contains_iff_mem] at null
  by_cases long : maxPathBytes < path.text.utf8ByteSize
  · simp [long, Nat.not_le.2 long]
  rw [if_neg long]
  by_cases isEmpty : path.text = ""
  · simp [isEmpty]
  · simp [null, Nat.not_lt.1 long, isEmpty]

/-- A name fits when it leaves room for the folder and a slash. -/
theorem fits_of_bounds
    (noSlash : '/' ∉ name.toList) (notEmpty : name ≠ "")
    (noNull : '\x00' ∉ name.toList) (noNullAbove : '\x00' ∉ folder.text.toList)
    (short : name.utf8ByteSize ≤ maxNameBytes)
    (shortPath : folder.text.utf8ByteSize + 1 + name.utf8ByteSize ≤ maxPathBytes) :
    folder.Fits name := by
  refine ⟨checkPath_eq_ok.2 ?_, short⟩
  have slash : "/".utf8ByteSize = 1 := by decide
  rw [Path.join, Path.not_isAbsolute_name noSlash, if_neg Bool.false_ne_true]
  split
  · refine ⟨by simp [noNull, noNullAbove], ?_, by simp [notEmpty]⟩
    rw [String.utf8ByteSize_append]
    omega
  · refine ⟨by simp [noNull, noNullAbove], ?_, by simp⟩
    rw [String.utf8ByteSize_append, String.utf8ByteSize_append, slash]
    omega

theorem startOf_join (isName : IsName name) :
    startOf (folder.join name) = startOf folder := by
  rw [startOf, startOf, Path.isAbsolute_join folder isName.noSlash]

theorem HasFolder.walk_join
    (has : tree.HasFolder folder location) (isName : IsName name) :
    ∃ front, (folder.join name).parts = front ++ [name] ∧
      tree.walk (startOf (folder.join name)) (front ++ [""]) = .ok location := by
  obtain ⟨front, parts, same | closed⟩ := Path.parts_join folder isName.noSlash
  · refine ⟨front, parts, ?_⟩
    rw [startOf_join isName, ← same]
    exact has
  · refine ⟨front, parts, ?_⟩
    have idle : Path.isIdle "" = true := rfl
    rw [HasFolder, closed, List.append_assoc, walk_append, bind_eq_ok] at has
    obtain ⟨inner, walked, twice⟩ := has
    rw [List.singleton_append,
      walk_cons_of_folder (node?_of_walk_cons twice), if_pos idle] at twice
    rw [startOf_join isName, walk_append, walked]
    exact twice

theorem checkPath_bind
    {path : Path} {next : Unit → Except FileFault Location} {place : Location} :
    (checkPath path >>= next) = .ok place ↔
      checkPath path = .ok () ∧ next () = .ok place := by
  rw [bind_eq_ok]
  constructor
  · rintro ⟨⟨⟩, checked, reached⟩
    exact ⟨checked, reached⟩
  · rintro ⟨checked, reached⟩
    exact ⟨(), checked, reached⟩

theorem walk_concat_name
    {start inner : Location} {front : List String}
    (walked : tree.walk start (front ++ [""]) = .ok inner) (isName : IsName name) :
    tree.walk start (front ++ [name]) =
      if maxNameBytes < name.utf8ByteSize then .error .nameTooLong
      else .ok (inner ++ [name]) := by
  rw [walk_append, bind_eq_ok] at walked
  obtain ⟨inner, toInner, last⟩ := walked
  obtain ⟨here, rfl⟩ := walk_empty_iff.1 last
  rw [walk_append, toInner]
  exact walk_name here isName

theorem HasFolder.locate_join
    (has : tree.HasFolder folder location) (isName : IsName name)
    {place : Location} :
    tree.locate (folder.join name) = .ok place ↔
      folder.Fits name ∧ place = location ++ [name] := by
  obtain ⟨front, parts, walked⟩ := has.walk_join isName
  rw [locate, checkPath_bind, parts, walk_concat_name walked isName, Path.Fits]
  by_cases long : maxNameBytes < name.utf8ByteSize
  · simp [long, Nat.not_le.2 long]
  · simp [long, Nat.not_lt.1 long, eq_comm]

/-- A file can be created under a last part that is a name, in a folder that is
there. -/
theorem target_eq_ok {path : Path} {place : Location} :
    tree.target path = .ok place ↔
      checkPath path = .ok () ∧ ∃ outer last inner, path.parts = outer ++ [last] ∧
        IsName last ∧ last.utf8ByteSize ≤ maxNameBytes ∧
        tree.walk (startOf path) (outer ++ [""]) = .ok inner ∧
        place = inner ++ [last] := by
  rw [target, checkPath_bind]
  refine and_congr_right fun _ => ?_
  rcases List.eq_nil_or_concat path.parts with isNil | ⟨outer, last, parts⟩
  · simp [isNil, throw, throwThe, MonadExceptOf.throw]
  rw [List.concat_eq_append] at parts
  have isLast : last ∈ path.parts := by
    rw [parts]
    exact List.mem_concat_self
  have noSlash := Path.noSlash_of_mem_parts isLast
  rw [parts]
  by_cases closed : last = ""
  · subst closed
    constructor
    · intro chosen
      split at chosen
      · exact absurd chosen nofun
      rw [bind_eq_ok] at chosen
      obtain ⟨inner, _, refused⟩ := chosen
      rw [if_pos (Or.inl List.getLast?_concat)] at refused
      exact absurd refused nofun
    · rintro ⟨front, name, inner, same, isName, _⟩
      obtain ⟨_, rfl⟩ : outer = front ∧ "" = name := by simpa using same
      exact absurd rfl isName.ne_empty
  · have stops : (outer ++ [last]).reverse.dropWhile (· == "") =
        last :: outer.reverse := by
      simp [closed]
    rw [stops]
    dsimp only
    simp only [List.reverse_reverse, bind_eq_ok, List.getLast?_concat,
      Option.some.injEq]
    constructor
    · rintro ⟨inner, walked, chosen⟩
      split at chosen
      · exact absurd chosen nofun
      rename_i isNew
      split at chosen
      · exact absurd chosen nofun
      rename_i short
      rw [not_or, not_or] at isNew
      refine ⟨outer, last, inner, rfl, ⟨noSlash, ?_, isNew.2.2⟩, Nat.not_lt.1 short,
        walked, (Except.ok.inj chosen).symm⟩
      simp [Path.isIdle, closed, isNew.2.1]
    · rintro ⟨front, name, inner, same, isName, short, walked, rfl⟩
      obtain ⟨rfl, rfl⟩ : outer = front ∧ last = name := by simpa using same
      refine ⟨inner, walked, ?_⟩
      rw [if_neg (by simp [closed, isName.ne_dot, isName.notUp]),
        if_neg (Nat.not_lt.2 short)]
      rfl

theorem HasFolder.target_join
    (has : tree.HasFolder folder location) (isName : IsName name)
    {place : Location} :
    tree.target (folder.join name) = .ok place ↔
      folder.Fits name ∧ place = location ++ [name] := by
  obtain ⟨front, parts, walked⟩ := has.walk_join isName
  rw [target_eq_ok, Path.Fits, and_assoc, parts]
  refine and_congr_right fun _ => ?_
  constructor
  · rintro ⟨outer, last, inner, same, _, short, toInner, rfl⟩
    obtain ⟨rfl, rfl⟩ : front = outer ∧ name = last := by simpa using same
    rw [walked, Except.ok.injEq] at toInner
    exact ⟨short, toInner ▸ rfl⟩
  · rintro ⟨short, rfl⟩
    exact ⟨front, name, location, rfl, isName, short, walked, rfl⟩

theorem fits_of_target
    {place : Location} (isName : IsName name)
    (isTarget : tree.target (folder.join name) = .ok place) : folder.Fits name := by
  obtain ⟨checked, outer, last, inner, parts, _, short, _, _⟩ :=
    target_eq_ok.1 isTarget
  obtain ⟨front, joined, _⟩ := Path.parts_join folder isName.noSlash
  rw [joined] at parts
  have ⟨_, same⟩ := List.append_inj' parts rfl
  rw [← List.singleton_inj.1 same] at short
  exact ⟨checked, short⟩

/-! ## Operations -/

theorem HasFolder.at?_join
    (has : tree.HasFolder folder location) (isName : IsName name) {node : Node} :
    tree.at? (folder.join name) = .ok node ↔
      folder.Fits name ∧ tree.node? (location ++ [name]) = some node := by
  simp only [at?, bind_eq_ok, has.locate_join isName]
  constructor
  · rintro ⟨place, ⟨fits, rfl⟩, there⟩
    split at there
    · rename_i found
      cases there
      exact ⟨fits, found⟩
    · exact absurd there nofun
  · rintro ⟨fits, there⟩
    refine ⟨_, ⟨fits, rfl⟩, ?_⟩
    rw [there]
    rfl

theorem HasFolder.read_join
    (has : tree.HasFolder folder location) (isName : IsName name)
    {content : ByteArray} :
    tree.read (folder.join name) = .ok content ↔
      folder.Fits name ∧
        tree.node? (location ++ [name]) = some (.file content) := by
  simp only [read, bind_eq_ok, has.at?_join isName]
  constructor
  · rintro ⟨node, ⟨fits, there⟩, isFile⟩
    cases node with
    | folder => exact absurd isFile nofun
    | file bytes =>
        cases isFile
        exact ⟨fits, there⟩
  · rintro ⟨fits, there⟩
    exact ⟨_, ⟨fits, there⟩, rfl⟩

theorem HasFolder.pathExists_join
    (has : tree.HasFolder folder location) (isName : IsName name) :
    tree.pathExists (folder.join name) = true ↔
      folder.Fits name ∧ tree.node? (location ++ [name]) ≠ none := by
  rw [pathExists]
  cases found : tree.at? (folder.join name) with
  | ok node =>
      obtain ⟨fits, there⟩ := (has.at?_join isName).1 found
      simp [Except.isOk, Except.toBool, fits, there]
  | error fault =>
      refine ⟨nofun, ?_⟩
      rintro ⟨fits, present⟩
      obtain ⟨node, there⟩ := Option.ne_none_iff_exists'.1 present
      exact absurd (found.symm.trans ((has.at?_join isName).2 ⟨fits, there⟩)) nofun

theorem write_eq_ok
    {path : Path} {content : ByteArray} {other : FileTree} :
    tree.write path content = .ok other ↔
      ∃ place, tree.target path = .ok place ∧ tree.node? place ≠ some .folder ∧
        other = tree.put place (.file content) := by
  rw [write, bind_eq_ok]
  refine exists_congr fun place => and_congr_right fun _ => ?_
  constructor
  · intro written
    split at written
    · exact absurd written nofun
    · rename_i notFolder
      exact ⟨notFolder, (Except.ok.inj written).symm⟩
  · rintro ⟨notFolder, rfl⟩
    split
    · exact absurd ‹_› notFolder
    · rfl

theorem HasFolder.write_join
    (has : tree.HasFolder folder location) (isName : IsName name)
    {content : ByteArray} {other : FileTree} :
    tree.write (folder.join name) content = .ok other ↔
      folder.Fits name ∧ tree.node? (location ++ [name]) ≠ some .folder ∧
        other = tree.put (location ++ [name]) (.file content) := by
  rw [write_eq_ok]
  constructor
  · rintro ⟨place, isTarget, notFolder, rfl⟩
    obtain ⟨fits, rfl⟩ := (has.target_join isName).1 isTarget
    exact ⟨fits, notFolder, rfl⟩
  · rintro ⟨fits, notFolder, rfl⟩
    exact ⟨_, (has.target_join isName).2 ⟨fits, rfl⟩, notFolder, rfl⟩

theorem HasFolder.moveFile_join
    (has : tree.HasFolder folder location) (isName : IsName name)
    {newName : String} (isNewName : IsName newName) {other : FileTree} :
    tree.moveFile (folder.join name) (folder.join newName) = .ok other ↔
      folder.Fits name ∧ folder.Fits newName ∧
        tree.node? (location ++ [newName]) ≠ some .folder ∧
        ∃ content, tree.node? (location ++ [name]) = some (.file content) ∧
          other = (tree.erase (location ++ [name])).put
            (location ++ [newName]) (.file content) := by
  simp only [moveFile, bind_eq_ok, has.read_join isName, has.locate_join isName,
    has.target_join isNewName]
  constructor
  · rintro ⟨content, ⟨fits, there⟩, _, ⟨_, rfl⟩, _, ⟨newFits, rfl⟩, moved⟩
    split at moved
    · exact absurd moved nofun
    · rename_i notFolder
      cases moved
      exact ⟨fits, newFits, notFolder, content, there, rfl⟩
  · rintro ⟨fits, newFits, notFolder, content, there, rfl⟩
    refine ⟨content, ⟨fits, there⟩, _, ⟨fits, rfl⟩, _, ⟨newFits, rfl⟩, ?_⟩
    split
    · exact absurd ‹_› notFolder
    · rfl

/-- A file does not take the place of a folder. -/
theorem HasFolder.moveFile_join_of_folder
    (has : tree.HasFolder folder location) (isName : IsName name)
    {newName : String} (isNewName : IsName newName) (fits : folder.Fits name)
    (newFits : folder.Fits newName) {content : ByteArray}
    (there : tree.node? (location ++ [name]) = some (.file content))
    (taken : tree.node? (location ++ [newName]) = some .folder) :
    tree.moveFile (folder.join name) (folder.join newName) = .error .isAFolder := by
  have isRead := (has.read_join isName).2 ⟨fits, there⟩
  have located := (has.locate_join isName).2 ⟨fits, rfl⟩
  have isTarget := (has.target_join isNewName).2 ⟨newFits, rfl⟩
  rw [moveFile, isRead, located, isTarget]
  simp [taken, bind, Except.bind, throw, throwThe, MonadExceptOf.throw]

theorem HasFolder.remove?_join
    (has : tree.HasFolder folder location) (isName : IsName name)
    {other : FileTree} :
    tree.remove? (folder.join name) = some other ↔
      folder.Fits name ∧ tree.node? (location ++ [name]) ≠ none ∧
        other = tree.restrict (!(location ++ [name]).isPrefixOf ·) := by
  rw [remove?]
  cases found : tree.locate (folder.join name) with
  | error fault =>
      refine ⟨nofun, ?_⟩
      rintro ⟨fits, _⟩
      exact absurd (found.symm.trans ((has.locate_join isName).2 ⟨fits, rfl⟩)) nofun
  | ok place =>
      obtain ⟨fits, rfl⟩ := (has.locate_join isName).1 found
      dsimp only
      split
      · simp [*]
      · simp [*, eq_comm]

theorem read_of_write
    {path : Path} {content : ByteArray} {other : FileTree}
    (written : tree.write path content = .ok other) :
    other.read path = .ok content := by
  obtain ⟨place, isTarget, notFolder, rfl⟩ := write_eq_ok.1 written
  obtain ⟨checked, outer, last, inner, parts, isName, short, walked, rfl⟩ :=
    target_eq_ok.1 isTarget
  have walkedToo : (tree.put (inner ++ [last]) (.file content)).walk (startOf path)
      (outer ++ [""]) = .ok inner := by
    refine walk_of_grounded ?_ (grounded_startOf tree path) walked
    intro place grounded
    have isFolder := grounded place (List.prefix_refl place)
    rw [node?_put_of_ne tree _ ?_, isFolder]
    rintro rfl
    exact notFolder isFolder
  have located : (tree.put (inner ++ [last]) (.file content)).locate path =
      .ok (inner ++ [last]) := by
    rw [locate, checkPath_bind, parts, walk_concat_name walkedToo isName,
      if_neg (Nat.not_lt.2 short)]
    exact ⟨checked, rfl⟩
  rw [read, at?, located]
  dsimp only [bind, Except.bind]
  rw [node?_put_self tree _ (isName.isAnchor_append inner)]
  rfl

theorem node?_restrict_of_apart
    (tree : FileTree) {removed place : Location} (apart : ¬removed <+: place) :
    (tree.restrict (!removed.isPrefixOf ·)).node? place = tree.node? place := by
  have kept : (!removed.isPrefixOf place) = true := by
    rw [Bool.not_eq_true', Bool.eq_false_iff, ne_eq, List.isPrefixOf_iff_prefix]
    exact apart
  rw [node?_restrict, if_pos (Or.inr kept)]

theorem node?_restrict_self
    (tree : FileTree) {removed : Location} (inside : removed.isAnchor = false) :
    (tree.restrict (!removed.isPrefixOf ·)).node? removed = none := by
  rw [node?_restrict, if_neg (by simp [inside])]

/-- No way to a folder passes a file that is removed. -/
theorem HasFolder.of_removed
    {path : Path} {removed : Location} {content : ByteArray}
    (has : tree.HasFolder path location)
    (isFile : tree.node? removed = some (.file content)) :
    (tree.restrict (!removed.isPrefixOf ·)).HasFolder path location := by
  refine has.of_grounded fun place grounded => ?_
  have apart : ¬removed <+: place := fun inside =>
    absurd ((grounded removed inside).symm.trans isFile) nofun
  rw [node?_restrict_of_apart tree apart]
  exact grounded place (List.prefix_refl place)

end FileTree

end LectureQuiz
