import LectureQuiz.Proofs.FileTree.Name

/-!
# Folders that a path leads to

`HasFolder` says that a path leads to a folder. It holds once the folders of the
path were created, it is kept by everything that removes no folder, and creating
the folders again then changes nothing.
-/

namespace LectureQuiz

theorem bind_eq_ok
    {epsilon alpha beta : Type} {first : Except epsilon alpha}
    {next : alpha → Except epsilon beta} {result : beta} :
    (first >>= next) = .ok result ↔
      ∃ value, first = .ok value ∧ next value = .ok result := by
  cases first with
  | error fault => exact ⟨nofun, nofun⟩
  | ok value => simp [bind, Except.bind]

namespace FileTree

variable {tree : FileTree}

theorem walk_append
    (tree : FileTree) (location : Location) (first second : List String) :
    tree.walk location (first ++ second) =
      (tree.walk location first >>= fun inner => tree.walk inner second) := by
  induction first generalizing location with
  | nil => rfl
  | cons part rest inductionHypothesis =>
      rw [List.cons_append, walk, walk]
      cases here : tree.node? location with
      | none => rfl
      | some node =>
          cases node with
          | file content => rfl
          | folder =>
              simp only [inductionHypothesis]
              split
              · rfl
              split
              · rfl
              split <;> rfl

theorem node?_of_walk_cons
    {location target : Location} {part : String} {rest : List String}
    (walked : tree.walk location (part :: rest) = .ok target) :
    tree.node? location = some .folder := by
  rw [walk] at walked
  split at walked
  · exact absurd walked nofun
  · exact absurd walked nofun
  · assumption

theorem walk_cons_of_folder
    {location : Location} (here : tree.node? location = some .folder)
    (part : String) (rest : List String) :
    tree.walk location (part :: rest) =
      if Path.isIdle part then tree.walk location rest
      else if part = ".." then tree.walk location.up rest
      else if maxNameBytes < part.utf8ByteSize then .error .nameTooLong
      else tree.walk (location ++ [part]) rest := by
  rw [walk, here]

theorem walk_empty_iff {location target : Location} :
    tree.walk location [""] = .ok target ↔
      tree.node? location = some .folder ∧ location = target := by
  constructor
  · intro walked
    have here := node?_of_walk_cons walked
    rw [walk_cons_of_folder here] at walked
    exact ⟨here, by simpa [Path.isIdle, walk] using walked⟩
  · rintro ⟨here, rfl⟩
    rw [walk_cons_of_folder here]
    simp [walk, Path.isIdle]

theorem walk_name
    {location : Location} (here : tree.node? location = some .folder)
    {name : String} (isName : IsName name) :
    tree.walk location [name] =
      if maxNameBytes < name.utf8ByteSize then .error .nameTooLong
      else .ok (location ++ [name]) := by
  rw [walk_cons_of_folder here]
  simp [walk, isName.notIdle, isName.notUp]

/-- The path leads to a folder, which is at the location. -/
def HasFolder (tree : FileTree) (path : Path) (location : Location) : Prop :=
  tree.walk (startOf path) (path.parts ++ [""]) = .ok location

theorem HasFolder.node?_eq
    {path : Path} {location : Location} (has : tree.HasFolder path location) :
    tree.node? location = some .folder := by
  rw [HasFolder, walk_append, bind_eq_ok] at has
  obtain ⟨inner, _, last⟩ := has
  obtain ⟨here, rfl⟩ := walk_empty_iff.1 last
  exact here

/-- All that is passed on the way to the location are folders, and so is what is
there. -/
def Grounded (tree : FileTree) (location : Location) : Prop :=
  ∀ outer, outer <+: location → tree.node? outer = some .folder

theorem node?_of_isAnchor
    (tree : FileTree) {location : Location} (anchor : location.isAnchor = true) :
    tree.node? location = some .folder := by
  rw [node?, if_pos anchor]

theorem grounded_startOf (tree : FileTree) (path : Path) :
    tree.Grounded (startOf path) := by
  intro outer inside
  refine node?_of_isAnchor tree ?_
  rw [startOf] at inside
  split at inside
  · obtain ⟨rest, whole⟩ := inside
    cases outer with
    | nil => rfl
    | cons first others =>
        rw [List.cons_append, List.cons.injEq, List.append_eq_nil_iff] at whole
        rw [whole.1, whole.2.1]
        rfl
  · rw [List.prefix_nil.1 inside]
    rfl

theorem Grounded.up
    {location : Location} (grounded : tree.Grounded location) :
    tree.Grounded location.up := by
  rw [Location.up]
  split
  · rename_i allUp
    intro outer inside
    refine node?_of_isAnchor tree ?_
    rw [Location.isAnchor, Bool.or_eq_true, List.all_eq_true]
    refine Or.inl fun part member => ?_
    rcases List.mem_append.1 (inside.subset member) with before | last
    · exact List.all_eq_true.1 allUp part before
    · rw [List.mem_singleton.1 last]
      rfl
  split
  · exact grounded
  · intro outer inside
    exact grounded outer (inside.trans (List.dropLast_prefix location))

theorem Grounded.append
    {location : Location} (grounded : tree.Grounded location) {name : String}
    (here : tree.node? (location ++ [name]) = some .folder) :
    tree.Grounded (location ++ [name]) := by
  intro outer inside
  rcases List.prefix_concat_iff.1 inside with rfl | before
  · exact here
  · exact grounded outer before

/-- A walk that succeeds still does so where no folder is missing that it could
pass. -/
theorem walk_of_grounded
    {other : FileTree} {location target : Location} {parts : List String}
    (folders : ∀ place, tree.Grounded place → other.node? place = some .folder)
    (grounded : tree.Grounded location)
    (walked : tree.walk location parts = .ok target) :
    other.walk location parts = .ok target := by
  induction parts generalizing location with
  | nil => simpa [walk] using walked
  | cons part rest inductionHypothesis =>
      rw [walk_cons_of_folder (node?_of_walk_cons walked)] at walked
      rw [walk_cons_of_folder (folders location grounded)]
      by_cases idle : Path.isIdle part = true
      · rw [if_pos idle] at walked ⊢
        exact inductionHypothesis grounded walked
      rw [if_neg idle] at walked ⊢
      by_cases up : part = ".."
      · rw [if_pos up] at walked ⊢
        exact inductionHypothesis grounded.up walked
      rw [if_neg up] at walked ⊢
      by_cases long : maxNameBytes < part.utf8ByteSize
      · rw [if_pos long] at walked
        exact absurd walked nofun
      rw [if_neg long] at walked ⊢
      cases rest with
      | nil => simpa [walk] using walked
      | cons next others =>
          have there := node?_of_walk_cons walked
          exact inductionHypothesis (grounded.append there) walked

theorem HasFolder.of_grounded
    {other : FileTree} {path : Path} {location : Location}
    (has : tree.HasFolder path location)
    (folders : ∀ place, tree.Grounded place → other.node? place = some .folder) :
    other.HasFolder path location :=
  walk_of_grounded folders (grounded_startOf tree path) has

theorem HasFolder.of_folders
    {other : FileTree} {path : Path} {location : Location}
    (has : tree.HasFolder path location)
    (folders : ∀ place, tree.node? place = some .folder →
      other.node? place = some .folder) :
    other.HasFolder path location :=
  has.of_grounded fun place grounded =>
    folders place (grounded place (List.prefix_refl place))

/-! ## Creating folders -/

/-- The second tree has all that the first one has, and only folders besides. -/
def Grows (tree other : FileTree) : Prop :=
  ∀ place, other.node? place = tree.node? place ∨
    (tree.node? place = none ∧ other.node? place = some .folder)

namespace Grows

variable {first second third : FileTree}

theorem refl (tree : FileTree) : tree.Grows tree :=
  fun _ => Or.inl rfl

theorem trans (grows : first.Grows second) (also : second.Grows third) :
    first.Grows third := by
  intro place
  rcases also place with same | ⟨absent, folder⟩
  · rw [same]
    exact grows place
  · rcases grows place with sameBefore | ⟨_, folderBefore⟩
    · exact Or.inr ⟨sameBefore ▸ absent, folder⟩
    · exact absurd (folderBefore.symm.trans absent) nofun

theorem node?_of_some
    (grows : first.Grows second) {place : Location} {node : Node}
    (there : first.node? place = some node) :
    second.node? place = some node := by
  rcases grows place with same | ⟨absent, _⟩
  · exact same.trans there
  · exact absurd (absent.symm.trans there) nofun

theorem node?_of_none
    (grows : first.Grows second) {place : Location}
    (absent : second.node? place = none) : first.node? place = none := by
  rcases grows place with same | ⟨absentBefore, _⟩
  · exact same.symm.trans absent
  · exact absentBefore

theorem node?_file_iff
    (grows : first.Grows second) {place : Location} {content : ByteArray} :
    second.node? place = some (.file content) ↔
      first.node? place = some (.file content) := by
  rcases grows place with same | ⟨absent, folder⟩
  · rw [same]
  · simp [absent, folder]

end Grows

theorem not_isAnchor_of_absent
    {place : Location} (absent : tree.node? place = none) :
    place.isAnchor = false := by
  rw [Bool.eq_false_iff]
  intro anchor
  simp [node?, anchor] at absent

theorem grows_put_folder
    {place : Location} (absent : tree.node? place = none) :
    tree.Grows (tree.put place .folder) := by
  intro other
  by_cases same : other = place
  · subst same
    have inside := not_isAnchor_of_absent absent
    exact Or.inr ⟨absent, node?_put_self tree .folder inside⟩
  · exact Or.inl (node?_put_of_ne tree .folder same)

theorem Grounded.of_grows
    {other : FileTree} {location : Location} (grounded : tree.Grounded location)
    (grows : tree.Grows other) : other.Grounded location :=
  fun outer inside => grows.node?_of_some (grounded outer inside)

/-- One part of a path is passed, after its folder was created if need be. -/
inductive Passes (tree : FileTree) (location : Location) (part : String)
    (rest : List String) : FileTree → Location → Prop
  | idle (idle : Path.isIdle part = true) :
      Passes tree location part rest tree location
  | up (notIdle : ¬Path.isIdle part = true) (up : part = "..") :
      Passes tree location part rest tree location.up
  | found (notIdle : ¬Path.isIdle part = true) (notUp : part ≠ "..")
      (short : ¬maxNameBytes < part.utf8ByteSize)
      (there : tree.node? (location ++ [part]) = some .folder) :
      Passes tree location part rest tree (location ++ [part])
  | created (notIdle : ¬Path.isIdle part = true) (notUp : part ≠ "..")
      (short : ¬maxNameBytes < part.utf8ByteSize)
      (absent : tree.node? (location ++ [part]) = none)
      (leadsOn : (rest.all Path.isIdle && rest.contains ".") = false) :
      Passes tree location part rest (tree.put (location ++ [part]) .folder)
        (location ++ [part])

theorem createAlong_cons_iff
    {other : FileTree} {location : Location} {part : String} {rest : List String} :
    tree.createAlong location (part :: rest) = (.ok (), other) ↔
      ∃ made inner, tree.Passes location part rest made inner ∧
        made.createAlong inner rest = (.ok (), other) := by
  rw [createAlong]
  constructor
  · intro created
    split at created
    · exact ⟨_, _, .idle ‹_›, created⟩
    split at created
    · exact ⟨_, _, .up ‹_› ‹_›, created⟩
    split at created
    · exact absurd (congrArg Prod.fst created) nofun
    split at created
    · exact ⟨_, _, .found ‹_› ‹_› ‹_› ‹_›, created⟩
    · exact absurd (congrArg Prod.fst created) nofun
    split at created
    · exact absurd (congrArg Prod.fst created) nofun
    · exact ⟨_, _, .created ‹_› ‹_› ‹_› ‹_› (Bool.eq_false_iff.2 ‹_›), created⟩
  · rintro ⟨made, inner, passes, created⟩
    cases passes with
    | idle idle => rw [if_pos idle, created]
    | up notIdle up => rw [if_neg notIdle, if_pos up, created]
    | found notIdle notUp short there =>
        rw [if_neg notIdle, if_neg notUp, if_neg short, there]
        exact created
    | created notIdle notUp short absent leadsOn =>
        rw [if_neg notIdle, if_neg notUp, if_neg short, absent]
        dsimp only
        rw [leadsOn]
        exact created

theorem Passes.grounded
    {made : FileTree} {location inner : Location} {part : String}
    {rest : List String} (passes : tree.Passes location part rest made inner)
    (grounded : tree.Grounded location) :
    tree.Grows made ∧ made.Grounded inner := by
  cases passes with
  | idle idle => exact ⟨.refl tree, grounded⟩
  | up notIdle up => exact ⟨.refl tree, grounded.up⟩
  | found notIdle notUp short there => exact ⟨.refl tree, grounded.append there⟩
  | created notIdle notUp short absent leadsOn =>
      have grows := grows_put_folder absent
      refine ⟨grows, (grounded.of_grows grows).append ?_⟩
      exact node?_put_self tree .folder (not_isAnchor_of_absent absent)

theorem Passes.walk_cons
    {made other : FileTree} {location inner : Location} {part : String}
    {rest : List String} (passes : tree.Passes location part rest made inner)
    (here : other.node? location = some .folder) (parts : List String) :
    other.walk location (part :: parts) = other.walk inner parts := by
  rw [walk_cons_of_folder here]
  cases passes with
  | idle idle => rw [if_pos idle]
  | up notIdle up => rw [if_neg notIdle, if_pos up]
  | found notIdle notUp short there =>
      rw [if_neg notIdle, if_neg notUp, if_neg short]
  | created notIdle notUp short absent leadsOn =>
      rw [if_neg notIdle, if_neg notUp, if_neg short]

/-- Creating folders adds nothing but folders, and then the way leads to one. -/
theorem createAlong_ok
    {other : FileTree} {location : Location} {parts : List String}
    (grounded : tree.Grounded location)
    (created : tree.createAlong location parts = (.ok (), other)) :
    tree.Grows other ∧
      ∃ target, other.walk location (parts ++ [""]) = .ok target := by
  induction parts generalizing tree location with
  | nil =>
      rw [createAlong, Prod.mk.injEq] at created
      obtain ⟨_, rfl⟩ := created
      have here := grounded location (List.prefix_refl location)
      exact ⟨.refl tree, location, walk_empty_iff.2 ⟨here, rfl⟩⟩
  | cons part rest inductionHypothesis =>
      obtain ⟨made, inner, passes, createdRest⟩ := createAlong_cons_iff.1 created
      obtain ⟨grows, groundedInner⟩ := passes.grounded grounded
      obtain ⟨growsOn, target, walked⟩ :=
        inductionHypothesis groundedInner createdRest
      have growsAll := grows.trans growsOn
      have here := grounded location (List.prefix_refl location)
      refine ⟨growsAll, target, ?_⟩
      rw [List.cons_append, passes.walk_cons (growsAll.node?_of_some here)]
      exact walked

theorem parts_of_empty {path : Path} (isEmpty : path.text = "") :
    path.parts = [""] ∧ startOf path = [] := by
  simp [Path.parts, startOf, Path.isAbsolute, isEmpty, Text.pieces]

theorem createFolders_ok
    {other : FileTree} {path : Path}
    (created : tree.createFolders path = (.ok (), other)) :
    tree.Grows other ∧ ∃ location, other.HasFolder path location := by
  rw [createFolders] at created
  by_cases isEmpty : path.text = ""
  · rw [if_pos isEmpty, Prod.mk.injEq] at created
    obtain ⟨_, rfl⟩ := created
    obtain ⟨parts, start⟩ := parts_of_empty isEmpty
    have here : tree.node? [] = some .folder := rfl
    have idle : Path.isIdle "" = true := rfl
    refine ⟨.refl tree, [], ?_⟩
    rw [HasFolder, parts, start, List.singleton_append,
      walk_cons_of_folder here, if_pos idle]
    exact walk_empty_iff.2 ⟨here, rfl⟩
  · rw [if_neg isEmpty] at created
    split at created
    · exact absurd (congrArg Prod.fst created) nofun
    · exact createAlong_ok (grounded_startOf tree path) created

theorem usable_of_createFolders
    {other : FileTree} {path : Path}
    (created : tree.createFolders path = (.ok (), other)) :
    path.text = "" ∨ checkPath path = .ok () := by
  rw [createFolders] at created
  split at created
  · exact Or.inl ‹_›
  split at created
  · exact absurd (congrArg Prod.fst created) nofun
  · exact Or.inr ‹_›

theorem createAlong_of_walk
    {location target : Location} {parts : List String}
    (walked : tree.walk location (parts ++ [""]) = .ok target) :
    tree.createAlong location parts = (.ok (), tree) := by
  induction parts generalizing location with
  | nil => rfl
  | cons part rest inductionHypothesis =>
      rw [List.cons_append] at walked
      rw [walk_cons_of_folder (node?_of_walk_cons walked)] at walked
      rw [createAlong]
      by_cases idle : Path.isIdle part = true
      · rw [if_pos idle] at walked ⊢
        exact inductionHypothesis walked
      rw [if_neg idle] at walked ⊢
      by_cases up : part = ".."
      · rw [if_pos up] at walked ⊢
        exact inductionHypothesis walked
      rw [if_neg up] at walked ⊢
      by_cases long : maxNameBytes < part.utf8ByteSize
      · rw [if_pos long] at walked
        exact absurd walked nofun
      rw [if_neg long] at walked ⊢
      have there : tree.node? (location ++ [part]) = some .folder := by
        cases rest with
        | nil => exact node?_of_walk_cons walked
        | cons next others => exact node?_of_walk_cons walked
      rw [there]
      exact inductionHypothesis walked

theorem createFolders_of_hasFolder
    {path : Path} {location : Location} (has : tree.HasFolder path location)
    (usable : path.text = "" ∨ checkPath path = .ok ()) :
    tree.createFolders path = (.ok (), tree) := by
  rw [createFolders]
  by_cases isEmpty : path.text = ""
  · rw [if_pos isEmpty]
  · rw [if_neg isEmpty, usable.resolve_left isEmpty]
    exact createAlong_of_walk has

/-- Creates the folders of the paths in turn. Nothing is returned when one of them
cannot be created. -/
def createAll (tree : FileTree) : List Path → Option FileTree
  | [] => some tree
  | path :: rest =>
      match tree.createFolders path with
      | (.ok (), made) => made.createAll rest
      | (.error _, _) => none

theorem createAll_nil_iff {other : FileTree} :
    tree.createAll [] = some other ↔ other = tree := by
  rw [createAll, Option.some.injEq, eq_comm]

theorem createAll_cons_iff
    {other : FileTree} {path : Path} {rest : List Path} :
    tree.createAll (path :: rest) = some other ↔
      ∃ made, tree.createFolders path = (.ok (), made) ∧
        made.createAll rest = some other := by
  rw [createAll]
  constructor
  · intro created
    split at created
    · exact ⟨_, ‹_›, created⟩
    · exact absurd created nofun
  · rintro ⟨made, createdHere, created⟩
    rw [createdHere]
    exact created

theorem grows_of_createAll
    {other : FileTree} {paths : List Path}
    (created : tree.createAll paths = some other) : tree.Grows other := by
  induction paths generalizing tree with
  | nil =>
      obtain rfl := createAll_nil_iff.1 created
      exact .refl _
  | cons path rest inductionHypothesis =>
      obtain ⟨made, createdHere, createdRest⟩ := createAll_cons_iff.1 created
      have ⟨grows, _⟩ := createFolders_ok createdHere
      exact grows.trans (inductionHypothesis createdRest)

end FileTree

end LectureQuiz
