import LectureQuiz.Proofs.QuizSet.Failure
import LectureQuiz.Proofs.QuizSet.Repeat

namespace LectureQuiz

namespace FileTree

variable {tree other : FileTree} {place : Location}

/-- If there is a manifest in the place, it is one that packing has written. -/
def HasPackedManifest (tree : FileTree) (place : Location) : Prop :=
  ∀ content, tree.node? (place ++ [Manifest.fileName]) = some (.file content) →
    ∃ manifest : Manifest, manifest.IsPacked ∧
      content = manifest.toJson.pretty.toUTF8

namespace HasPackedManifest

theorem of_sameFile
    (packed : tree.HasPackedManifest place)
    (same : tree.SameFile other (place ++ [Manifest.fileName])) :
    other.HasPackedManifest place :=
  fun content isFile => packed content ((same content).1 isFile)

theorem isPacked
    {folder : Path} (packed : tree.HasPackedManifest folder.place) (prepared : FileTree)
    (created : tree.createFolders folder = (.ok (), prepared)) :
    (prepared.manifest folder).IsPacked := by
  rcases createFolders_ok created with ⟨grows, _, has⟩
  have hasPlace : prepared.HasFolder folder folder.place := has.eq_place ▸ has
  cases isRead : prepared.read (folder.join Manifest.fileName) with
  | error fault =>
      rw [FileTree.manifest, isRead]
      exact Manifest.isPacked_empty
  | ok content =>
      have isFile :=
        ((hasPlace.read_join Manifest.isOpenName_fileName.isName).1 isRead).2
      rcases packed content (grows.node?_file_iff.1 isFile) with ⟨_, isPacked, rfl⟩
      rw [manifest_of_read isRead]
      exact isPacked

/-- Packing keeps the manifest or writes another one, also when it fails. -/
theorem of_pack
    {folder : Path} (packed : tree.HasPackedManifest folder.place)
    (items : List Item) (selected : Option UInt32) :
    ((pack items folder selected).runOn tree).2.files.HasPackedManifest
      folder.place := by
  rcases run : (pack items folder selected).runOn tree with ⟨error | packing, session⟩
  · have failed := @failedPack_of_run _ ⟨items, selected⟩ _ _ _ run
    exact packed.of_sameFile failed.sameFile_manifest
  · have yields := Job.yields_iff_runOn.2 run
    by_cases nothing : selectedItems selected items = []
    · rcases yields_pack_of_nil nothing yields with ⟨_, rfl⟩
      exact packed
    · rcases yields_pack nothing yields with ⟨prepared, written, passes⟩
      have isPacked := passes.isPacked (holds_groupByModule _).distinct
        (packed.isPacked prepared passes.created)
      have stored := passes.stored.present _ (List.mem_singleton_self _)
      intro content isFile
      rw [stored, Option.some.injEq, Node.file.injEq] at isFile
      exact ⟨packing.manifest, isPacked, isFile.symm⟩

end HasPackedManifest

end FileTree

/-- The trees in which nothing but packing has ever written into a place. Elsewhere
anything may have changed, and what was in the place may have been deleted. -/
inductive OnlyPacked (place : Location) : FileTree → Prop
  | start {tree : FileTree}
      (vacant : ∀ name, IsName name → tree.node? (place ++ [name]) = none) :
      OnlyPacked place tree
  | packed {tree : FileTree} {folder : Path} (before : OnlyPacked place tree)
      (isPlace : folder.place = place) (items : List Item)
      (selected : Option UInt32) :
      OnlyPacked place ((pack items folder selected).runOn tree).2.files
  | changed {tree other : FileTree} (before : OnlyPacked place tree)
      (kept : ∀ name, IsName name →
        other.node? (place ++ [name]) = tree.node? (place ++ [name]) ∨
          other.node? (place ++ [name]) = none) :
      OnlyPacked place other

theorem OnlyPacked.hasPackedManifest
    {place : Location} {tree : FileTree} (packed : OnlyPacked place tree) :
    tree.HasPackedManifest place := by
  have isName := Manifest.isOpenName_fileName.isName
  induction packed with
  | start vacant =>
      intro content isFile
      rw [vacant _ isName] at isFile
      exact absurd isFile nofun
  | packed _ isPlace items selected inductionHypothesis =>
      subst isPlace
      exact inductionHypothesis.of_pack items selected
  | changed _ kept inductionHypothesis =>
      intro content isFile
      rcases kept _ isName with same | absent
      · exact inductionHypothesis content (same ▸ isFile)
      · rw [absent] at isFile
        exact absurd isFile nofun

end LectureQuiz
