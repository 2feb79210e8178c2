import LectureQuiz.Proofs.FileTree.Entry
import LectureQuiz.Proofs.FileTree.Place

namespace LectureQuiz.FileTree

/-- The folders of the first tree are folders of the second one. -/
def KeepsFolders (tree other : FileTree) : Prop :=
  ∀ place, tree.node? place = some .folder → other.node? place = some .folder

variable {tree other : FileTree}

theorem KeepsFolders.refl (tree : FileTree) : tree.KeepsFolders tree :=
  fun _ isFolder => isFolder

theorem KeepsFolders.trans
    {third : FileTree} (keeps : tree.KeepsFolders other)
    (keepsMore : other.KeepsFolders third) : tree.KeepsFolders third :=
  fun place isFolder => keepsMore place (keeps place isFolder)

/-- The folders that were created before a fault stay. -/
theorem grows_createAlong (tree : FileTree) (location : Location) (parts : List String) :
    tree.Grows (tree.createAlong location parts).2 := by
  induction parts generalizing tree location with
  | nil => exact .refl tree
  | cons part rest inductionHypothesis =>
      rw [createAlong]
      split
      · exact inductionHypothesis tree location
      split
      · exact inductionHypothesis tree location.up
      split
      · exact .refl tree
      split
      · exact inductionHypothesis tree (location ++ [part])
      · exact .refl tree
      · rename_i absent
        split
        · exact .refl tree
        · exact (grows_put_folder absent).trans (inductionHypothesis _ _)

theorem grows_createFolders (tree : FileTree) (path : Path) :
    tree.Grows (tree.createFolders path).2 := by
  rw [createFolders]
  split
  · exact .refl tree
  split
  · exact .refl tree
  · exact grows_createAlong tree _ _

theorem keepsFolders_createFolders (tree : FileTree) (path : Path) :
    tree.KeepsFolders (tree.createFolders path).2 :=
  fun _ isFolder => (tree.grows_createFolders path).node?_of_some isFolder

theorem keepsFolders_put
    {place : Location} (notFolder : tree.node? place ≠ some .folder) (node : Node) :
    tree.KeepsFolders (tree.put place node) := by
  intro folder isFolder
  rw [node?_put_of_ne tree node ?_, isFolder]
  intro same
  exact notFolder (same ▸ isFolder)

theorem keepsFolders_write
    {path : Path} {content : ByteArray}
    (written : tree.write path content = .ok other) : tree.KeepsFolders other := by
  obtain ⟨place, _, notFolder, rfl⟩ := write_eq_ok.1 written
  exact keepsFolders_put notFolder _

theorem moveFile_eq_ok {source target : Path} :
    tree.moveFile source target = .ok other ↔
      ∃ content sourcePlace targetPlace, tree.read source = .ok content ∧
        tree.locate source = .ok sourcePlace ∧ tree.target target = .ok targetPlace ∧
        tree.node? targetPlace ≠ some .folder ∧
        other = (tree.erase sourcePlace).put targetPlace (.file content) := by
  simp only [moveFile, bind_eq_ok]
  constructor
  · intro moved
    obtain ⟨content, isRead, sourcePlace, located, targetPlace, isTarget, chosen⟩ :=
      moved
    split at chosen
    · cases chosen
    · rename_i notFolder
      exact ⟨content, sourcePlace, targetPlace, isRead, located, isTarget, notFolder,
        (Except.ok.inj chosen).symm⟩
  · intro moved
    obtain ⟨content, sourcePlace, targetPlace, isRead, located, isTarget, notFolder,
      rfl⟩ := moved
    refine ⟨content, isRead, sourcePlace, located, targetPlace, isTarget, ?_⟩
    split
    · exact absurd ‹_› notFolder
    · rfl

theorem keepsFolders_moveFile
    {source target : Path} (moved : tree.moveFile source target = .ok other) :
    tree.KeepsFolders other := by
  obtain ⟨content, sourcePlace, targetPlace, isRead, located, _, notFolder, rfl⟩ :=
    moveFile_eq_ok.1 moved
  have isFile := node?_of_read isRead
  rw [← locate_eq_place located] at isFile
  intro folder isFolder
  rw [node?_put_of_ne _ _ ?_, node?_erase_of_ne _ ?_, isFolder]
  · intro same
    rw [same, isFile] at isFolder
    cases isFolder
  · intro same
    exact notFolder (same ▸ isFolder)

theorem walk_of_keepsFolders
    {path : Path} {parts : List String} {location : Location}
    (walked : tree.walk (startOf path) parts = .ok location)
    (keeps : tree.KeepsFolders other) :
    other.walk (startOf path) parts = .ok location := by
  refine walk_of_grounded ?_ (grounded_startOf tree path) walked
  exact fun place grounded => keeps place (grounded place (List.prefix_refl place))

theorem node?_of_toOption_read
    {path : Path} {content : ByteArray}
    (isRead : (tree.read path).toOption = some content) :
    tree.node? path.place = some (.file content) := by
  cases found : tree.read path with
  | error fault =>
      rw [found] at isRead
      cases isRead
  | ok bytes =>
      rw [found] at isRead
      cases isRead
      exact node?_of_read found

theorem pathExists_of_read
    {path : Path} {content : ByteArray} (isRead : tree.read path = .ok content) :
    tree.pathExists path = true := by
  rw [read, bind_eq_ok] at isRead
  obtain ⟨node, there, _⟩ := isRead
  rw [pathExists, there]
  rfl

/-- A file that is left alone can still be read where no folder is lost. -/
theorem read_of_kept
    {path : Path} {content : ByteArray} (isRead : tree.read path = .ok content)
    (keeps : tree.KeepsFolders other)
    (same : other.node? path.place = tree.node? path.place) :
    other.read path = .ok content := by
  have isFile := node?_of_read isRead
  rw [read, bind_eq_ok] at isRead
  obtain ⟨node, there, _⟩ := isRead
  rw [at?, bind_eq_ok] at there
  obtain ⟨location, located, _⟩ := there
  have isPlace := locate_eq_place located
  rw [locate, checkPath_bind] at located
  have walked := walk_of_keepsFolders located.2 keeps
  have locatedThere : other.locate path = .ok location := by
    rw [locate, checkPath_bind]
    exact ⟨located.1, walked⟩
  rw [isPlace] at locatedThere
  rw [read, at?, locatedThere]
  dsimp only [bind, Except.bind]
  rw [same, isFile]
  rfl

/-- A file can still be written where no folder is lost. -/
theorem target_of_keepsFolders
    {path : Path} {place : Location} (isTarget : tree.target path = .ok place)
    (keeps : tree.KeepsFolders other) : other.target path = .ok place := by
  obtain ⟨checked, outer, last, inner, parts, isName, short, walked, rfl⟩ :=
    target_eq_ok.1 isTarget
  exact target_eq_ok.2 ⟨checked, outer, last, inner, parts, isName, short,
    walk_of_keepsFolders walked keeps, rfl⟩

/-- Folders that were created need not be created again. -/
theorem createAll_of_kept
    {made : FileTree} {paths : List Path}
    (created : tree.createAll paths = some made) (keeps : made.KeepsFolders other) :
    other.createAll paths = some other := by
  induction paths generalizing tree with
  | nil => exact createAll_nil_iff.2 rfl
  | cons path rest inductionHypothesis =>
      obtain ⟨first, createdFirst, createdRest⟩ := createAll_cons_iff.1 created
      obtain ⟨_, location, has⟩ := createFolders_ok createdFirst
      have grows := grows_of_createAll createdRest
      have hasOther : other.HasFolder path location :=
        has.of_folders fun place isFolder =>
          keeps place (grows.node?_of_some isFolder)
      refine createAll_cons_iff.2 ⟨other, ?_, inductionHypothesis createdRest⟩
      exact createFolders_of_hasFolder hasOther (usable_of_createFolders createdFirst)

end LectureQuiz.FileTree
