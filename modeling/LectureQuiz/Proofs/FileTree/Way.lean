import LectureQuiz.Proofs.FileTree.Kept

namespace LectureQuiz

/-- The places that are passed on the way along a path. -/
def Path.way (path : Path) : List Location :=
  path.parts.scanl Location.enter (FileTree.startOf path)

namespace FileTree

/-- The place is on the way along the path, and a folder was created there. -/
def CreatedOnWay (tree other : FileTree) (path : Path) (place : Location) : Prop :=
  place ∈ path.way ∧ tree.node? place = none ∧ other.node? place = some .folder

theorem mem_scanl_enter_cons
    {location place : Location} {part : String} {rest : List String}
    (onTheWay : place ∈ rest.scanl Location.enter (location.enter part)) :
    place ∈ (part :: rest).scanl Location.enter location := by
  rw [List.scanl_cons]
  exact List.mem_cons_of_mem _ onTheWay

theorem createAlong_elsewhere
    (tree : FileTree) (location : Location) (parts : List String) (place : Location) :
    (tree.createAlong location parts).2.node? place = tree.node? place ∨
      place ∈ parts.scanl Location.enter location := by
  induction parts generalizing tree location with
  | nil => exact Or.inl rfl
  | cons part rest inductionHypothesis =>
      have further := (inductionHypothesis tree (location.enter part)).imp_right
        mem_scanl_enter_cons
      rw [createAlong]
      split
      · rename_i idle
        rwa [Location.enter, if_pos idle] at further
      rename_i notIdle
      split
      · rename_i up
        rwa [Location.enter, if_neg notIdle, if_pos up] at further
      rename_i notUp
      have enters : location.enter part = location ++ [part] := by
        rw [Location.enter, if_neg notIdle, if_neg notUp]
      split
      · exact Or.inl rfl
      split
      · rwa [enters] at further
      · exact Or.inl rfl
      split
      · exact Or.inl rfl
      · by_cases same : place = location ++ [part]
        · refine Or.inr (mem_scanl_enter_cons ?_)
          rw [enters, same]
          cases rest <;> simp
        · have onwards := inductionHypothesis (tree.put (location ++ [part]) .folder)
            (location ++ [part])
          rw [node?_put_of_ne tree .folder same] at onwards
          rw [← enters] at onwards ⊢
          exact onwards.imp_right mem_scanl_enter_cons

theorem createFolders_elsewhere (tree : FileTree) (path : Path) (place : Location) :
    (tree.createFolders path).2.node? place = tree.node? place ∨
      tree.CreatedOnWay (tree.createFolders path).2 path place := by
  rcases tree.grows_createFolders path place with same | isNew
  · exact Or.inl same
  suffices onTheWay : (tree.createFolders path).2.node? place = tree.node? place ∨
      place ∈ path.way from onTheWay.imp_right fun onTheWay => ⟨onTheWay, isNew⟩
  rw [createFolders]
  split
  · exact Or.inl rfl
  split
  · exact Or.inl rfl
  · exact createAlong_elsewhere tree _ _ place

/-- Creating folders changes no place that none of their paths passes. -/
theorem createAll_elsewhere
    {tree other : FileTree} {paths : List Path} {place : Location}
    (created : tree.createAll paths = some other)
    (offWay : ∀ path ∈ paths, place ∉ path.way) :
    other.node? place = tree.node? place := by
  induction paths generalizing tree with
  | nil =>
      rcases createAll_nil_iff.1 created with rfl
      rfl
  | cons path rest inductionHypothesis =>
      rcases createAll_cons_iff.1 created with ⟨made, createdHere, createdRest⟩
      have offRest := List.forall_mem_cons.1 offWay
      rw [inductionHypothesis createdRest offRest.2]
      have elsewhere := tree.createFolders_elsewhere path place
      rw [createdHere] at elsewhere
      exact elsewhere.resolve_right fun onWay => offRest.1 onWay.1

end FileTree

end LectureQuiz
