import LectureQuiz.Proofs.Job.Relates
import LectureQuiz.Proofs.Job.Repeat
import LectureQuiz.Proofs.Stage.Files

namespace LectureQuiz

open LectureQuiz.Text

namespace FileTree

variable {tree other : FileTree} {folder : Path} {extension : String}

theorem of_mem_filesIn
    {name : String} {content : ByteArray} (wellNamed : tree.WellNamed)
    (notEmpty : extension ≠ "") (member : (name, content) ∈ tree.filesIn folder extension) :
    IsName name ∧ nameExtension? name = some extension ∧
      tree.node? (folder.place ++ [name]) = some (.file content) := by
  rcases mem_filesIn.1 member with ⟨listed, isRead⟩
  rcases (mem_fileNames notEmpty).1 listed with ⟨hasExtension, _, isFile⟩
  have isName := wellNamed _ name _ isFile
  rw [← place_join folder isName]
  exact ⟨isName, hasExtension, node?_of_read isRead⟩

theorem isFolder_of_keepsFolders
    (keeps : tree.KeepsFolders other) (isFolder : tree.isFolder folder = true) :
    other.isFolder folder = true := by
  have ⟨located, _⟩ := isFolder_iff.1 isFolder
  have ⟨checked, _⟩ := checkPath_bind.1 located
  exact ((hasFolder_of_isFolder isFolder).of_folders keeps).isFolder checked

/-- A file of a folder can be read by its path where it is the same. -/
theorem mem_filesIn_congr
    {name : String} {content : ByteArray} (wellNamed : tree.WellNamed)
    (keeps : tree.KeepsFolders other) (isFolder : tree.isFolder folder = true)
    (notEmpty : extension ≠ "") (same : tree.SameFile other (folder.place ++ [name])) :
    (name, content) ∈ other.filesIn folder extension ↔
      (name, content) ∈ tree.filesIn folder extension := by
  have has := hasFolder_of_isFolder isFolder
  have hasToo := has.of_folders keeps
  have listed : name ∈ other.fileNames folder.place extension ↔
      name ∈ tree.fileNames folder.place extension := by
    rw [mem_fileNames notEmpty, mem_fileNames notEmpty]
    exact and_congr_right fun _ => exists_congr same
  rw [mem_filesIn, mem_filesIn, listed]
  apply and_congr_right
  intro isListed
  obtain ⟨_, _, isFile⟩ := (mem_fileNames notEmpty).1 isListed
  have isName := wellNamed _ name _ isFile
  rw [hasToo.read_join isName, has.read_join isName, same content]

theorem filesIn_congr
    (wellNamed : tree.WellNamed) (keeps : tree.KeepsFolders other)
    (isFolder : tree.isFolder folder = true) (notEmpty : extension ≠ "")
    (same : ∀ name, nameExtension? name = some extension →
      tree.SameFile other (folder.place ++ [name])) :
    other.filesIn folder extension = tree.filesIn folder extension := by
  apply eq_of_increasing_names (increasing_filesIn other folder extension)
    (increasing_filesIn tree folder extension)
  rintro ⟨name, content⟩
  by_cases hasExtension : nameExtension? name = some extension
  · exact mem_filesIn_congr wellNamed keeps isFolder notEmpty (same name hasExtension)
  · have notListed (files : FileTree) : (name, content) ∉ files.filesIn folder extension :=
      fun member => hasExtension ((mem_fileNames notEmpty).1 (mem_filesIn.1 member).1).1
    exact iff_of_false (notListed other) (notListed tree)

/-- Trees with the same nodes have the same files. -/
theorem Like.filesIn_eq (like : tree.Like other) (notEmpty : extension ≠ "") :
    other.filesIn folder extension = tree.filesIn folder extension := by
  apply eq_of_increasing_names (increasing_filesIn other folder extension)
    (increasing_filesIn tree folder extension)
  rintro ⟨name, content⟩
  rw [mem_filesIn, mem_filesIn, mem_fileNames notEmpty, mem_fileNames notEmpty, like]
  exact and_congr_right fun _ => ⟨like.symm.read, like.read⟩

end FileTree

namespace Job.Echoes

variable {tree other : FileTree}

theorem inputFiles
    {folder : Path} {extension : String} (wellNamed : tree.WellNamed)
    (keeps : tree.KeepsFolders other) (notEmpty : extension ≠ "")
    (same : ∀ name, nameExtension? name = some extension →
      tree.SameFile other (folder.place ++ [name])) :
    (inputFiles folder extension).Echoes tree other := by
  intro session after files isTree yields
  subst isTree
  rcases yields_inputFiles_iff.1 yields with ⟨isFolder, rfl, rfl⟩
  refine ⟨rfl, fun session like => ⟨session, ?_, like⟩⟩
  have keepsHere := keeps.trans like.symm.keepsFolders
  have isFolderHere := FileTree.isFolder_of_keepsFolders keepsHere isFolder
  have files := FileTree.filesIn_congr wellNamed keepsHere isFolder notEmpty
    fun name hasExtension => (same name hasExtension).trans (like.symm.sameFile _)
  exact yields_inputFiles_iff.2 ⟨isFolderHere, by rw [files], rfl⟩

theorem forEachFile
    {alpha : Type} {job : InputFile → Job alpha} {files : List InputFile}
    (echoes : ∀ file ∈ files, (job file).Echoes tree other) :
    (forEachFile files job).Echoes tree other := by
  apply mapM
  intro input member
  apply (echoes input.1 (List.fst_mem_of_mem_zipIdx member)).bind
  intro _ _ value _ _
  exact (report _).bind fun _ _ _ _ _ => pure value

end Job.Echoes

theorem onlyReads_inputFiles (folder : Path) (extension : String) :
    (inputFiles folder extension).OnlyReads := by
  have isChange := FileTree.isChange_eq
  apply (Job.relates_files isChange).bind isChange
  intro files
  split
  · exact (Job.relates_throw isChange _).bind isChange fun _ =>
      (Job.relates_atPath isChange folder _).bind isChange fun _ =>
        Job.relates_pure isChange _
  · exact (Job.relates_atPath isChange folder _).bind isChange fun _ =>
      Job.relates_pure isChange _

theorem onlyReads_reportedJob
    {alpha : Type} {job : InputFile → Job alpha} (reads : ∀ file, (job file).OnlyReads)
    (total : Nat) (input : InputFile × Nat) : (reportedJob job total input).OnlyReads := by
  have isChange := FileTree.isChange_eq
  exact (reads input.1).bind isChange fun value =>
    (Job.relates_report isChange _).bind isChange fun _ => Job.relates_pure isChange value

theorem onlyReads_forEachFile
    {alpha : Type} {job : InputFile → Job alpha} (reads : ∀ file, (job file).OnlyReads)
    (files : List InputFile) : (forEachFile files job).OnlyReads :=
  Job.relates_mapM FileTree.isChange_eq fun input _ =>
    onlyReads_reportedJob reads files.length input

/-- When the files have been read, the job has succeeded for each on the files that there
were. -/
theorem yields_of_mem_forEachFile
    {alpha : Type} {job : InputFile → Job alpha} {files : List InputFile} {file : InputFile}
    {values : List alpha} {session after : Session} (reads : ∀ file, (job file).OnlyReads)
    (yields : (forEachFile files job).Yields session values after) (member : file ∈ files) :
    ∃ between value other, (job file).Yields between value other ∧
      between.files = session.files := by
  rw [forEachFile_eq_mapM] at yields
  rw [← List.zipIdx_map_fst 0 files, List.mem_map] at member
  obtain ⟨input, isInput, rfl⟩ := member
  obtain ⟨between, value, _, yieldsInput, same⟩ :=
    Job.OnlyReads.yields_of_mem (onlyReads_reportedJob reads files.length) yields isInput
  obtain ⟨other, yieldsFile, _⟩ := yields_reportedJob.1 yieldsInput
  exact ⟨between, value, other, yieldsFile, same⟩

end LectureQuiz
