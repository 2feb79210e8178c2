import LectureQuiz.Proofs.FileTree.Entry

namespace LectureQuiz

open LectureQuiz.Text

namespace Path

theorem dropIdleEnd_append (parts : List String) :
    ∃ idles, parts = dropIdleEnd parts ++ idles ∧
      ∀ part ∈ idles, isIdle part = true := by
  refine ⟨(parts.reverse.takeWhile isIdle).reverse, ?_, ?_⟩
  · rw [dropIdleEnd, ← List.reverse_append, List.takeWhile_append_dropWhile,
      List.reverse_reverse]
  · intro part member
    exact List.all_eq_true.1 List.all_takeWhile part (List.mem_reverse.1 member)

theorem dropIdleEnd_concat
    (parts : List String) {name : String} (notIdle : isIdle name = false) :
    dropIdleEnd (parts ++ [name]) = parts ++ [name] := by
  simp [dropIdleEnd, notIdle]

/-- The path with the parts. -/
def ofParts (parts : List String) : Path :=
  ⟨"/".intercalate parts⟩

theorem parts_ofParts
    {parts : List String} (notEmpty : parts ≠ [])
    (single : ∀ part ∈ parts, '/' ∉ part.toList) :
    (ofParts parts).parts = parts := by
  have joined : ("/".intercalate parts).toList =
      Text.join '/' (parts.map String.toList) := String.toList_intercalate
  rw [Path.parts, ofParts, joined, pieces_join]
  · simp
  · simpa using notEmpty
  · simpa using single

theorem ofParts_parts (path : Path) : ofParts path.parts = path := by
  have text : ("/".intercalate path.parts).toList = path.text.toList := by
    have texts : path.parts.map String.toList = pieces '/' path.text.toList := by
      simp [Path.parts, Function.comp_def]
    rw [String.toList_intercalate, texts]
    exact join_pieces '/' path.text.toList
  rw [ofParts, String.toList_inj.1 text]

theorem text_of_parts_append
    {path : Path} {front rest : List String} (parts : path.parts = front ++ rest)
    (hasFront : front ≠ []) (hasRest : rest ≠ []) :
    path.text = (ofParts front).text ++ "/" ++ (ofParts rest).text := by
  rw [← ofParts_parts path, parts, ofParts]
  exact String.intercalate_append_of_ne_nil hasFront hasRest

theorem parent?_of_parts
    {path : Path} {first name : String} {more : List String}
    (parts : path.parts = first :: (more ++ [name]))
    (notIdle : isIdle name = false) :
    path.parent? = some
      (if dropIdleEnd more = [] ∧ first = "" then ⟨"/"⟩
        else ofParts (first :: dropIdleEnd more)) := by
  rw [parent?, parts]
  dsimp only
  rw [dropIdleEnd_concat more notIdle]
  have isInner : more ++ [name] ≠ [] := by simp
  split
  · exact absurd ‹_› isInner
  · rw [List.dropLast_concat]
    split
    · rename_i outer
      rw [outer]
      by_cases isEmpty : first = ""
      · simp [isEmpty]
      · simp [isEmpty, ofParts]
    · rename_i outer
      rw [if_neg fun isRoot => outer isRoot.1]
      rfl

theorem parent?_of_name
    {path : Path} {name : String} (parts : path.parts = [name])
    (notEmpty : name ≠ "") : path.parent? = some ⟨""⟩ := by
  rw [parent?, parts]
  simp [dropIdleEnd, notEmpty]

theorem isAbsolute_of_append
    {path shorter : Path} {rest : String} (text : path.text = shorter.text ++ rest)
    (notEmpty : shorter.text ≠ "") : path.isAbsolute = shorter.isAbsolute := by
  rw [isAbsolute, isAbsolute, text, String.toList_append]
  cases chars : shorter.text.toList with
  | nil => exact absurd (by simpa using chars) notEmpty
  | cons first others => rfl

end Path

namespace FileTree

variable {tree : FileTree} {folder : Path} {location target : Location}
  {name : String}

theorem walk_idles
    {idles : List String} (allIdle : ∀ part ∈ idles, Path.isIdle part = true)
    (walked : tree.walk location (idles ++ [""]) = .ok target) :
    tree.walk location [""] = .ok target := by
  induction idles with
  | nil => exact walked
  | cons part rest inductionHypothesis =>
      have here := node?_of_walk_cons walked
      rw [List.cons_append, walk_cons_of_folder here,
        if_pos (allIdle part List.mem_cons_self)] at walked
      exact inductionHypothesis
        (fun other member => allIdle other (List.mem_cons_of_mem part member)) walked

theorem walk_append_idles
    {parts idles : List String} (allIdle : ∀ part ∈ idles, Path.isIdle part = true)
    (walked : tree.walk location (parts ++ idles ++ [""]) = .ok target) :
    tree.walk location (parts ++ [""]) = .ok target := by
  rw [List.append_assoc, walk_append, bind_eq_ok] at walked
  obtain ⟨inner, toInner, further⟩ := walked
  rw [walk_append, toInner]
  exact walk_idles allIdle further

theorem hasFolder_root (tree : FileTree) : tree.HasFolder ⟨"/"⟩ ["/"] := by
  have parts : (Path.mk "/").parts = ["", ""] := by decide +kernel
  have start : startOf ⟨"/"⟩ = ["/"] := by decide +kernel
  have here : tree.node? ["/"] = some .folder := node?_of_isAnchor tree rfl
  have idle : Path.isIdle "" = true := rfl
  rw [HasFolder, parts, start, List.cons_append, List.singleton_append,
    walk_cons_of_folder here, if_pos idle, walk_cons_of_folder here, if_pos idle]
  exact walk_empty_iff.2 ⟨here, rfl⟩

theorem checkPath_of_append
    {path shorter : Path} {rest : String} (text : path.text = shorter.text ++ rest)
    (notEmpty : shorter.text ≠ "") (checked : checkPath path = .ok ()) :
    checkPath shorter = .ok () := by
  have ⟨noNull, short, _⟩ := checkPath_eq_ok.1 checked
  rw [text, String.utf8ByteSize_append] at short
  rw [text, String.toList_append] at noNull
  exact checkPath_eq_ok.2
    ⟨fun null => noNull (List.mem_append_left _ null), by omega, notEmpty⟩

/-- The folder above a file in a folder is there already. -/
theorem HasFolder.createFolders_parent?
    (has : tree.HasFolder folder location) (isName : IsName name)
    (checked : checkPath (folder.join name) = .ok ()) :
    ∃ above, (folder.join name).parent? = some above ∧
      tree.createFolders above = (.ok (), tree) := by
  obtain ⟨front, parts, sameFront⟩ := Path.parts_join folder isName.noSlash
  cases front with
  | nil =>
      refine ⟨_, Path.parent?_of_name parts isName.ne_empty, ?_⟩
      rw [createFolders, if_pos rfl]
  | cons first more =>
      refine ⟨_, Path.parent?_of_parts parts isName.notIdle, ?_⟩
      split
      · exact createFolders_of_hasFolder (hasFolder_root tree) (Or.inr rfl)
      rename_i notRoot
      obtain ⟨idles, whole, allIdle⟩ := Path.dropIdleEnd_append more
      have split : (folder.join name).parts =
          (first :: Path.dropIdleEnd more) ++ (idles ++ [name]) := by
        rw [parts, List.cons_append, List.cons_append, ← List.append_assoc, ← whole]
      have text := Path.text_of_parts_append split (List.cons_ne_nil _ _) (by simp)
      rw [String.append_assoc] at text
      have aboveParts : (Path.ofParts (first :: Path.dropIdleEnd more)).parts =
          first :: Path.dropIdleEnd more := by
        refine Path.parts_ofParts (List.cons_ne_nil _ _) fun part member => ?_
        exact Path.noSlash_of_mem_parts (split ▸ List.mem_append_left _ member)
      have notEmpty : (Path.ofParts (first :: Path.dropIdleEnd more)).text ≠ "" := by
        intro isEmpty
        rw [(parts_of_empty isEmpty).1, List.cons.injEq] at aboveParts
        exact notRoot ⟨aboveParts.2.symm, aboveParts.1.symm⟩
      have start : startOf (Path.ofParts (first :: Path.dropIdleEnd more)) =
          startOf folder := by
        rw [startOf, startOf, ← Path.isAbsolute_join folder isName.noSlash,
          Path.isAbsolute_of_append text notEmpty]
      have walked : tree.walk (startOf folder)
          ((first :: Path.dropIdleEnd more) ++ [""]) = .ok location := by
        rw [HasFolder] at has
        rcases sameFront with same | closed
        · rw [same, whole, ← List.cons_append] at has
          exact walk_append_idles allIdle has
        · rw [closed, whole, ← List.cons_append, List.append_assoc _ idles] at has
          refine walk_append_idles (List.forall_mem_append.2 ⟨allIdle, ?_⟩) has
          exact List.forall_mem_singleton.2 rfl
      have hasAbove : tree.HasFolder
          (Path.ofParts (first :: Path.dropIdleEnd more)) location := by
        rw [HasFolder, start, aboveParts]
        exact walked
      exact createFolders_of_hasFolder hasAbove
        (Or.inr (checkPath_of_append text notEmpty checked))

theorem HasFolder.createAll_parent?
    (has : tree.HasFolder folder location) (isName : IsName name)
    (checked : checkPath (folder.join name) = .ok ()) :
    tree.createAll (folder.join name).parent?.toList = some tree := by
  obtain ⟨above, isAbove, created⟩ := has.createFolders_parent? isName checked
  rw [isAbove]
  exact createAll_cons_iff.2 ⟨tree, created, createAll_nil_iff.2 rfl⟩

end FileTree

end LectureQuiz
