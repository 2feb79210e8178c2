import LectureQuiz.Proofs.FileTree.Kept

namespace LectureQuiz.FileTree

/-- Contents of files, by location. -/
abbrev Writes := Location → Option ByteArray

/-- The tree is the base with files where the base has nothing. -/
structure Overlays (tree base : FileTree) (writes : Writes) : Prop where
  node?_eq : ∀ place, tree.node? place =
    match writes place with
    | some content => some (.file content)
    | none => base.node? place
  apart : ∀ place, writes place ≠ none → base.node? place = none

variable {tree middle base : FileTree} {writes : Writes}

namespace Overlays

theorem refl (tree : FileTree) : tree.Overlays tree fun _ => none where
  node?_eq := fun _ => rfl
  apart := fun _ => nofun

theorem node?_of_none
    (overlays : tree.Overlays base writes) {place : Location}
    (unwritten : writes place = none) : tree.node? place = base.node? place := by
  rw [overlays.node?_eq, unwritten]

theorem node?_of_some
    (overlays : tree.Overlays base writes) {place : Location}
    {content : ByteArray} (written : writes place = some content) :
    tree.node? place = some (.file content) := by
  rw [overlays.node?_eq, written]

theorem node?_of_base
    (overlays : tree.Overlays base writes) {place : Location} {node : Node}
    (there : base.node? place = some node) : tree.node? place = some node := by
  rw [overlays.node?_of_none, there]
  cases written : writes place with
  | none => rfl
  | some content =>
      have absent := overlays.apart place (by rw [written]; exact nofun)
      exact absurd (there.symm.trans absent) nofun

theorem hasFolder
    (overlays : tree.Overlays base writes) {path : Path} {location : Location}
    (has : base.HasFolder path location) : tree.HasFolder path location :=
  has.of_folders fun _ isFolder => overlays.node?_of_base isFolder

theorem node?_ne_folder
    (overlays : tree.Overlays base writes) {place : Location}
    (notFolder : base.node? place ≠ some .folder) :
    tree.node? place ≠ some .folder := by
  cases written : writes place with
  | none => rwa [overlays.node?_of_none written]
  | some content =>
      rw [overlays.node?_of_some written]
      exact nofun

theorem target
    (overlays : tree.Overlays base writes) {path : Path} {place : Location}
    (isTarget : base.target path = .ok place) : tree.target path = .ok place :=
  target_of_keepsFolders isTarget fun _ isFolder => overlays.node?_of_base isFolder

theorem trans
    {earlier later : Writes} (second : tree.Overlays middle later)
    (first : middle.Overlays base earlier) :
    tree.Overlays base fun place => later place <|> earlier place := by
  constructor
  · intro place
    cases isLater : later place with
    | some content => exact second.node?_of_some isLater
    | none =>
        rw [second.node?_of_none isLater]
        exact first.node?_eq place
  · intro place written
    cases isLater : later place with
    | none =>
        rw [isLater] at written
        exact first.apart place written
    | some content =>
        have absent := second.apart place (by rw [isLater]; exact nofun)
        rw [first.node?_eq] at absent
        cases isEarlier : earlier place with
        | none => rwa [isEarlier] at absent
        | some content => rw [isEarlier] at absent; exact absurd absent nofun

theorem put
    (overlays : tree.Overlays base writes) {target : Location}
    (absent : base.node? target = none) (content : ByteArray) :
    (tree.put target (.file content)).Overlays base fun place =>
      if place = target then some content else writes place := by
  constructor
  · intro place
    by_cases same : place = target
    · subst same
      simp only [if_true]
      exact node?_put_self tree _ (not_isAnchor_of_absent absent)
    · rw [node?_put_of_ne tree _ same, overlays.node?_eq]
      simp only [same, if_false]
  · intro place written
    by_cases same : place = target
    · rwa [same]
    · rw [if_neg same] at written
      exact overlays.apart place written

theorem congr
    {others : Writes} (overlays : tree.Overlays base writes)
    (same : ∀ place, others place = writes place) : tree.Overlays base others := by
  rwa [show others = writes from funext same]

theorem of_passes
    {made : FileTree} {location inner : Location} {part : String}
    {rest : List String} (overlays : tree.Overlays base writes)
    (passes : base.Passes location part rest made inner)
    (apart : ∀ place, writes place ≠ none → made.node? place = none) :
    ∃ result, tree.Passes location part rest result inner ∧
      result.Overlays made writes := by
  cases passes with
  | idle idle => exact ⟨tree, .idle idle, overlays⟩
  | up notIdle up => exact ⟨tree, .up notIdle up, overlays⟩
  | found notIdle notUp short there =>
      exact ⟨tree, .found notIdle notUp short (overlays.node?_of_base there), overlays⟩
  | created notIdle notUp short absent leadsOn =>
      have inside := not_isAnchor_of_absent absent
      have unwritten : writes (location ++ [part]) = none := by
        refine Decidable.not_not.1 fun written => ?_
        have missing := apart _ written
        rw [node?_put_self base .folder inside] at missing
        exact absurd missing nofun
      have absentToo := (overlays.node?_of_none unwritten).trans absent
      refine ⟨tree.put (location ++ [part]) .folder,
        .created notIdle notUp short absentToo leadsOn, ?_, apart⟩
      intro place
      by_cases same : place = location ++ [part]
      · subst same
        rw [node?_put_self tree .folder inside, node?_put_self base .folder inside,
          unwritten]
      · rw [node?_put_of_ne tree .folder same, node?_put_of_ne base .folder same,
          overlays.node?_eq]

/-- Folders can be created where they can be created in the base, when no file
is written where they come to stand. -/
theorem createAlong
    {other : FileTree} {location : Location} {parts : List String}
    (overlays : tree.Overlays base writes) (grounded : base.Grounded location)
    (created : base.createAlong location parts = (.ok (), other))
    (apart : ∀ place, writes place ≠ none → other.node? place = none) :
    ∃ result, tree.createAlong location parts = (.ok (), result) ∧
      result.Overlays other writes := by
  induction parts generalizing tree base location with
  | nil =>
      rw [FileTree.createAlong, Prod.mk.injEq] at created
      obtain ⟨_, rfl⟩ := created
      exact ⟨tree, rfl, overlays⟩
  | cons part rest inductionHypothesis =>
      obtain ⟨made, inner, passes, createdRest⟩ := createAlong_cons_iff.1 created
      obtain ⟨_, groundedInner⟩ := passes.grounded grounded
      obtain ⟨growsOn, _⟩ := createAlong_ok groundedInner createdRest
      have apartMade (place : Location) (written : writes place ≠ none) :
          made.node? place = none := growsOn.node?_of_none (apart place written)
      obtain ⟨between, passesToo, overlaysMade⟩ :=
        overlays.of_passes passes apartMade
      obtain ⟨result, done, overlaysOther⟩ :=
        inductionHypothesis overlaysMade groundedInner createdRest
      exact ⟨result, createAlong_cons_iff.2 ⟨between, inner, passesToo, done⟩,
        overlaysOther⟩

theorem createFolders
    {other : FileTree} {path : Path} (overlays : tree.Overlays base writes)
    (created : base.createFolders path = (.ok (), other))
    (apart : ∀ place, writes place ≠ none → other.node? place = none) :
    ∃ result, tree.createFolders path = (.ok (), result) ∧
      result.Overlays other writes := by
  rw [FileTree.createFolders] at created ⊢
  by_cases isEmpty : path.text = ""
  · rw [if_pos isEmpty, Prod.mk.injEq] at created
    obtain ⟨_, rfl⟩ := created
    exact ⟨tree, if_pos isEmpty, overlays⟩
  · rw [if_neg isEmpty] at created ⊢
    split at created
    · simp at created
    · exact overlays.createAlong (grounded_startOf base path) created apart

theorem createAll
    {other : FileTree} {paths : List Path} (overlays : tree.Overlays base writes)
    (created : base.createAll paths = some other)
    (apart : ∀ place, writes place ≠ none → other.node? place = none) :
    ∃ result, tree.createAll paths = some result ∧
      result.Overlays other writes := by
  induction paths generalizing tree base with
  | nil =>
      obtain rfl := createAll_nil_iff.1 created
      exact ⟨tree, rfl, overlays⟩
  | cons path rest inductionHypothesis =>
      obtain ⟨made, createdHere, createdRest⟩ := createAll_cons_iff.1 created
      have growsOn := grows_of_createAll createdRest
      obtain ⟨between, createdToo, overlaysMade⟩ :=
        overlays.createFolders createdHere fun place written =>
          growsOn.node?_of_none (apart place written)
      obtain ⟨result, done, overlaysOther⟩ :=
        inductionHypothesis overlaysMade createdRest
      exact ⟨result, createAll_cons_iff.2 ⟨between, createdToo, done⟩, overlaysOther⟩

end Overlays

end LectureQuiz.FileTree
