import LectureQuiz.Proofs.FileTree.Contents
import LectureQuiz.Proofs.FileTree.Overlay
import LectureQuiz.Proofs.Job.Failing
import LectureQuiz.Proofs.Stage.Documents
import LectureQuiz.Proofs.VideoIndex
import LectureQuiz.Stage

/-!
# Files of stages

A stage lists its input files, runs a job for each of them, and mostly writes one
file for each. What it leaves is told by the documents that it was run for.
-/

namespace LectureQuiz

namespace FileTree

variable {tree : FileTree} {folder : Path}

theorem isFolder_iff :
    tree.isFolder folder = true ↔
      tree.locate folder = .ok folder.place ∧
        tree.node? folder.place = some .folder := by
  rw [isFolder, at?]
  cases located : tree.locate folder with
  | error fault => simp [bind, Except.bind]
  | ok location =>
      obtain rfl := locate_eq_place located
      dsimp only [bind, Except.bind]
      cases found : tree.node? folder.place with
      | none => simp [throw, throwThe, MonadExceptOf.throw]
      | some node =>
          cases node with
          | folder => simp [pure, Except.pure]
          | file content => simp [pure, Except.pure]

theorem hasFolder_of_isFolder (isFolder : tree.isFolder folder = true) :
    tree.HasFolder folder folder.place := by
  have ⟨located, here⟩ := isFolder_iff.1 isFolder
  rw [locate, checkPath_bind] at located
  rw [HasFolder, walk_append, located.2]
  exact walk_empty_iff.2 ⟨here, rfl⟩

theorem HasFolder.isFolder
    (has : tree.HasFolder folder folder.place)
    (checked : checkPath folder = .ok ()) : tree.isFolder folder = true := by
  rw [isFolder_iff, locate, checkPath_bind]
  have here := has.node?_eq
  rw [HasFolder, walk_append, bind_eq_ok] at has
  obtain ⟨inner, walked, last⟩ := has
  obtain ⟨_, rfl⟩ := walk_empty_iff.1 last
  exact ⟨⟨checked, walked⟩, here⟩

/-- The files in the folder that have the extension, each of which can be read by
its path. -/
structure Supplies (tree : FileTree) (folder : Path) (extension : String)
    (files : List (String × ByteArray)) : Prop where
  isFolder : tree.isFolder folder = true
  holds : tree.Holds folder extension files
  readable : ∀ file ∈ files, IsName file.1 ∧ folder.Fits file.1

namespace Supplies

variable {base other : FileTree} {extension : String}
  {files : List (String × ByteArray)}

theorem of_grows
    (supplies : tree.Supplies folder extension files) (grows : tree.Grows other) :
    other.Supplies folder extension files where
  isFolder := by
    have ⟨located, _⟩ := isFolder_iff.1 supplies.isFolder
    have ⟨checked, _⟩ := checkPath_bind.1 located
    have has := hasFolder_of_isFolder supplies.isFolder
    exact (has.of_folders fun _ isThere => grows.node?_of_some isThere).isFolder
      checked
  holds := by
    refine ⟨supplies.holds.increasing, fun name content => ?_⟩
    rw [grows.node?_file_iff]
    exact supplies.holds.mem_iff name content
  readable := supplies.readable

/-- The files can still be read after others have been written. -/
theorem read_of_overlays
    {writes : Writes} (supplies : base.Supplies folder extension files)
    (overlays : tree.Overlays base writes) {name : String} {content : ByteArray}
    (member : (name, content) ∈ files) : tree.read (folder.join name) = .ok content := by
  have ⟨isName, fits⟩ := supplies.readable _ member
  have ⟨_, there⟩ := (supplies.holds.mem_iff name content).1 member
  have has := overlays.hasFolder (hasFolder_of_isFolder supplies.isFolder)
  exact (has.read_join isName).2 ⟨fits, overlays.node?_of_base there⟩

theorem filesIn_eq
    (supplies : tree.Supplies folder extension files) (notEmpty : extension ≠ "") :
    tree.filesIn folder extension = files :=
  supplies.holds.filesIn_eq notEmpty fun _ member =>
    supplies.read_of_overlays (.refl tree) member

end Supplies

end FileTree

/-- The input files are those that can be read. -/
theorem filter_isFile_eq_filesIn (tree : FileTree) (folder : Path) (extension : String) :
    ((tree.fileNames folder.place extension).map fun name =>
        InputFile.mk (folder.join name) (nameStem name)).filter
          (fun file => tree.isFile file.path) =
      (tree.filesIn folder extension).map fun file =>
        ⟨folder.join file.1, nameStem file.1⟩ := by
  rw [FileTree.filesIn]
  induction tree.fileNames folder.place extension with
  | nil => rfl
  | cons name rest inductionHypothesis =>
      rw [List.map_cons, List.filter_cons, List.filterMap_cons, inductionHypothesis]
      dsimp only
      rw [tree.isFile_eq]
      cases (tree.read (folder.join name)).toOption <;> rfl

theorem yields_inputFiles_iff
    {session after : Session} {folder : Path} {extension : String}
    {files : List InputFile} :
    (inputFiles folder extension).Yields session files after ↔
      session.files.isFolder folder = true ∧
        files = (session.files.filesIn folder extension).map
          (fun file => ⟨folder.join file.1, nameStem file.1⟩) ∧
        after = session := by
  rw [inputFiles, Job.yields_bind]
  constructor
  · intro yields
    rcases yields with ⟨tree, between, yieldsFiles, yieldsRest⟩
    rcases Job.yields_files.1 yieldsFiles with ⟨rfl, rfl⟩
    cases isFolder : between.files.isFolder folder with
    | false =>
        rw [isFolder] at yieldsRest
        rcases Job.yields_bind.1 yieldsRest with ⟨_, _, refused, _⟩
        exact absurd refused Job.not_yields_throw
    | true =>
        rw [isFolder] at yieldsRest
        rcases Job.yields_bind.1 yieldsRest with ⟨place, _, located, listed⟩
        rcases Job.yields_atPath.1 located with ⟨isPlace, rfl⟩
        rw [FileTree.locate_eq_place isPlace] at listed
        rcases Job.yields_pure.1 listed with ⟨rfl, rfl⟩
        exact ⟨rfl, filter_isFile_eq_filesIn _ _ _, rfl⟩
  · intro listed
    rcases listed with ⟨isFolder, rfl, rfl⟩
    refine ⟨_, after, Job.yields_files.2 ⟨rfl, rfl⟩, ?_⟩
    rw [isFolder]
    refine Job.yields_bind.2 ⟨folder.place, after, ?_, ?_⟩
    · exact Job.yields_atPath.2 ⟨(FileTree.isFolder_iff.1 isFolder).1, rfl⟩
    · exact Job.yields_pure.2 ⟨(filter_isFile_eq_filesIn _ _ _).symm, rfl⟩

theorem fails_inputFiles_iff
    {session after : Session} {folder : Path} {extension : String} {error : Error} :
    (inputFiles folder extension).Fails session error after ↔
      session.files.isFolder folder = false ∧ error = .missingInput folder ∧
        after = session := by
  cases isFolder : session.files.isFolder folder with
  | true =>
      have lists : (inputFiles folder extension).Yields session _ session :=
        yields_inputFiles_iff.2 ⟨isFolder, rfl, rfl⟩
      exact iff_of_false (fun fails => fails.not_yields lists) nofun
  | false =>
      have refuses : (inputFiles folder extension).Fails session (.missingInput folder)
          session := by
        refine Job.fails_bind.2 (Or.inr ⟨_, _, Job.yields_files.2 ⟨rfl, rfl⟩, ?_⟩)
        rw [isFolder]
        exact Job.fails_bind.2 (Or.inl (Job.fails_throw.2 ⟨rfl, rfl⟩))
      constructor
      · exact fun fails => ⟨rfl, Job.fails_unique fails refuses⟩
      · rintro ⟨_, rfl, rfl⟩
        exact refuses

theorem yields_inputFiles
    {session : Session} {folder : Path} {extension : String}
    {files : List (String × ByteArray)}
    (supplies : session.files.Supplies folder extension files)
    (notEmpty : extension ≠ "") :
    (inputFiles folder extension).Yields session
      (files.map fun file => ⟨folder.join file.1, nameStem file.1⟩) session := by
  refine yields_inputFiles_iff.2 ⟨supplies.isFolder, ?_, rfl⟩
  rw [supplies.filesIn_eq notEmpty]

/-! ## A job for each file -/

/-- The job for the file at a position, which is reported when it is done. -/
def reportedJob {alpha : Type} (job : InputFile → Job alpha) (total : Nat)
    (input : InputFile × Nat) : Job alpha := do
  let result ← job input.1
  Job.report (.file input.1.stem (input.2 + 1) total)
  return result

theorem forEachFile_eq_mapM
    {alpha : Type} (files : List InputFile) (job : InputFile → Job alpha) :
    forEachFile files job = files.zipIdx.mapM (reportedJob job files.length) :=
  rfl

section

variable {alpha : Type} {job : InputFile → Job alpha} {total position : Nat}
  {file : InputFile} {session after : Session}

theorem yields_reportedJob {value : alpha} :
    (reportedJob job total (file, position)).Yields session value after ↔
      ∃ middle, (job file).Yields session value middle ∧
        after = { middle with progress := middle.progress ++
          [.file file.stem (position + 1) total] } := by
  simp only [reportedJob, Job.yields_bind, Job.yields_report, Job.yields_pure]
  constructor
  · rintro ⟨result, middle, yields, _, _, rfl, rfl, rfl⟩
    exact ⟨middle, yields, rfl⟩
  · rintro ⟨middle, yields, rfl⟩
    exact ⟨value, middle, yields, (), _, rfl, rfl, rfl⟩

theorem fails_reportedJob {error : Error} :
    (reportedJob job total (file, position)).Fails session error after ↔
      (job file).Fails session error after := by
  simp only [reportedJob, Job.fails_bind, Job.not_fails_report, Job.not_fails_pure,
    and_false, exists_false, or_false]

end

/-- What a job keeps for each file it keeps for all files, up to the first one for which
it fails. Every file in front of that one has its step in the run. -/
theorem exists_steps_forEachFile
    {alpha beta gamma : Type} {job : InputFile → Job alpha} {items : List beta}
    (input : beta → InputFile) (item : gamma → beta) (value : gamma → alpha)
    (keeps : List gamma → Session → Prop)
    (step : ∀ done next, done.map item ++ [next] <+: items →
      ∀ (session after : Session) (result : alpha), keeps done session →
        (job (input next)).Yields session result after →
        ∃ made, item made = next ∧ value made = result ∧
          keeps (done ++ [made]) { after with progress := after.progress ++
            [.file (input next).stem (done.length + 1) items.length] })
    {session : Session} (start : keeps [] session) :
    ∃ steps rest reached, items = steps.map item ++ rest ∧ keeps steps reached ∧
      (rest = [] ∧
          (forEachFile (items.map input) job).Yields session (steps.map value) reached ∨
        ∃ next others error after, rest = next :: others ∧
          (job (input next)).Fails reached error after ∧
          (forEachFile (items.map input) job).Fails session error after) := by
  suffices run : ∀ (rest : List beta) (done : List gamma) (session : Session),
      done.map item ++ rest = items → keeps done session →
        ∃ steps left reached, rest = steps.map item ++ left ∧
          keeps (done ++ steps) reached ∧
          (left = [] ∧ (((rest.map input).zipIdx done.length).mapM
              (reportedJob job items.length)).Yields session (steps.map value) reached ∨
            ∃ next others error after, left = next :: others ∧
              (job (input next)).Fails reached error after ∧
              (((rest.map input).zipIdx done.length).mapM
                (reportedJob job items.length)).Fails session error after) by
    have whole := run items [] session rfl start
    rw [forEachFile_eq_mapM, List.length_map]
    exact whole
  intro rest
  induction rest with
  | nil =>
      intro done session _ kept
      refine ⟨[], [], session, rfl, by rwa [List.append_nil], Or.inl ⟨rfl, ?_⟩⟩
      exact Job.yields_mapM_nil.2 ⟨rfl, rfl⟩
  | cons next rest inductionHypothesis =>
      intro done session whole kept
      have whole : (done.map item ++ [next]) ++ rest = items := by
        rw [← whole, List.append_assoc, List.singleton_append]
      rw [List.map_cons, List.zipIdx_cons]
      rcases (job (input next)).yields_or_fails session with
        ⟨result, middle, yields⟩ | ⟨error, after, fails⟩
      · obtain ⟨made, isItem, isValue, keptOn⟩ :=
          step done next ⟨rest, whole⟩ session middle result kept yields
        have wholeOn : (done ++ [made]).map item ++ rest = items := by
          rw [List.map_append, List.map_singleton, isItem, whole]
        obtain ⟨steps, left, reached, areItems, keptAll, ending⟩ :=
          inductionHypothesis (done ++ [made]) _ wholeOn keptOn
        rw [List.length_append, List.length_singleton] at ending
        have reported := (@yields_reportedJob _ _ items.length done.length _ _ _ _).2
          ⟨middle, yields, rfl⟩
        refine ⟨made :: steps, left, reached, ?_, ?_, ?_⟩
        · rw [List.map_cons, isItem, List.cons_append, areItems]
        · rwa [List.append_assoc, List.singleton_append] at keptAll
        · rcases ending with ⟨isEnd, runs⟩ | ⟨next, others, error, after, isNext, fails, stops⟩
          · refine Or.inl ⟨isEnd, Job.yields_mapM_cons.2 ⟨_, _, _, reported, runs, ?_⟩⟩
            rw [List.map_cons, isValue]
          · exact Or.inr ⟨next, others, error, after, isNext, fails,
              Job.fails_mapM_cons.2 (Or.inr ⟨_, _, reported, stops⟩)⟩
      · refine ⟨[], next :: rest, session, rfl, by rwa [List.append_nil], Or.inr ?_⟩
        exact ⟨next, rest, error, after, rfl, fails,
          Job.fails_mapM_cons.2 (Or.inl (fails_reportedJob.2 fails))⟩

/-- A job for each file keeps what it keeps for the next file. -/
theorem yields_forEachFile
    {alpha beta : Type} {job : InputFile → Job alpha} {items : List beta}
    (input : beta → InputFile) (value : beta → alpha)
    (keeps : List beta → FileTree → Prop)
    (step : ∀ done item, done ++ [item] <+: items → ∀ session : Session,
      keeps done session.files →
        ∃ after, (job (input item)).Yields session (value item) after ∧
          keeps (done ++ [item]) after.files)
    {session : Session} (start : keeps [] session.files) :
    ∃ after, (forEachFile (items.map input) job).Yields session
      (items.map value) after ∧ keeps items after.files := by
  have oneStep : ∀ done next, done.map id ++ [next] <+: items →
      ∀ (between after : Session) (result : alpha), keeps done between.files →
        (job (input next)).Yields between result after →
        ∃ made, id made = next ∧ value made = result ∧ keeps (done ++ [made]) after.files := by
    intro done next isNext between after result kept yields
    rw [List.map_id] at isNext
    obtain ⟨other, yieldsToo, keptOn⟩ := step done next isNext between kept
    obtain ⟨rfl, rfl⟩ := Job.yields_unique yields yieldsToo
    exact ⟨next, rfl, rfl, keptOn⟩
  obtain ⟨steps, rest, reached, whole, kept, ending⟩ := exists_steps_forEachFile input id
    value (fun done between => keeps done between.files) oneStep start
  rw [List.map_id] at whole
  rcases ending with ⟨rfl, yields⟩ | ⟨next, others, error, after, rfl, fails, _⟩
  · rw [List.append_nil] at whole
    exact ⟨reached, whole ▸ yields, whole ▸ kept⟩
  · have isNext : steps ++ [next] <+: items :=
      ⟨others, by rw [whole, List.append_assoc, List.singleton_append]⟩
    obtain ⟨_, yields, _⟩ := step steps next isNext reached kept
    exact absurd yields fails.not_yields

/-- A job that writes for each file leaves what it writes for all of them. -/
theorem yields_forEachFile_of_writes
    {alpha beta : Type} {job : InputFile → Job alpha} {items : List beta}
    {input : beta → InputFile} {value : beta → alpha} {made : FileTree}
    (writes : List beta → FileTree.Writes) (unwritten : ∀ place, writes [] place = none)
    (step : ∀ done item, item ∈ items → ∀ session : Session,
      session.files.Overlays made (writes done) →
        ∃ after, (job (input item)).Yields session (value item) after ∧
          after.files.Overlays made (writes (done ++ [item])))
    (progress : List Progress) :
    ∃ after, (forEachFile (items.map input) job).Yields ⟨made, progress⟩
      (items.map value) after ∧ after.files.Overlays made (writes items) := by
  apply yields_forEachFile input value fun done tree =>
    tree.Overlays made (writes done)
  · intro done item isNext session overlays
    have member : item ∈ items :=
      isNext.subset (List.mem_append_right done List.mem_cons_self)
    exact step done item member session overlays
  · exact (FileTree.Overlays.refl made).congr unwritten

theorem exists_of_yields_forEachFile
    {alpha : Type} {job : InputFile → Job alpha} {first : InputFile}
    {rest : List InputFile} {session after : Session} {values : List alpha}
    (yields : (forEachFile (first :: rest) job).Yields session values after) :
    ∃ value between, (job first).Yields session value between := by
  rw [forEachFile_eq_mapM, List.zipIdx_cons] at yields
  obtain ⟨value, _, _, yieldsFirst, _⟩ := Job.yields_mapM_cons.1 yields
  obtain ⟨between, yieldsJob, _⟩ := yields_reportedJob.1 yieldsFirst
  exact ⟨value, between, yieldsJob⟩

/-! ## Files of documents -/

/-- The files of the documents in the folder; of one name the last is left. -/
def documentWrites (folder : Path) (extension : String)
    (content : Document → ByteArray) (documents : List Document) :
    FileTree.Writes := fun place =>
  (documents.reverse.find? fun document =>
    folder.place ++ [document.fileName extension] == place).map content

section

variable {folder : Path} {extension : String} {content : Document → ByteArray}
  {documents : List Document} {document : Document}

theorem documentWrites_concat (place : Location) :
    documentWrites folder extension content (documents ++ [document]) place =
      if place = folder.place ++ [document.fileName extension] then
        some (content document)
      else documentWrites folder extension content documents place := by
  rw [documentWrites, List.reverse_concat]
  by_cases same : place = folder.place ++ [document.fileName extension]
  · simp [same]
  · rw [if_neg same, List.find?_cons_of_neg]
    · rfl
    · exact fun equal => same (beq_iff_eq.1 equal).symm

theorem eq_content_of_documentWrites
    {place : Location} {bytes : ByteArray}
    (written : documentWrites folder extension content documents place = some bytes) :
    ∃ document ∈ documents,
      place = folder.place ++ [document.fileName extension] ∧
        bytes = content document := by
  obtain ⟨document, found, rfl⟩ := Option.map_eq_some_iff.1 written
  have isHere : (folder.place ++ [document.fileName extension] == place) = true :=
    @List.find?_some _ (fun document : Document =>
      folder.place ++ [document.fileName extension] == place) _ _ found
  exact ⟨document, List.mem_reverse.1 (List.mem_of_find?_eq_some found),
    (beq_iff_eq.1 isHere).symm, rfl⟩

theorem exists_of_documentWrites
    {place : Location}
    (written : documentWrites folder extension content documents place ≠ none) :
    ∃ document ∈ documents,
      place = folder.place ++ [document.fileName extension] := by
  obtain ⟨bytes, isWritten⟩ := Option.ne_none_iff_exists'.1 written
  obtain ⟨document, member, isPlace, _⟩ := eq_content_of_documentWrites isWritten
  exact ⟨document, member, isPlace⟩

/-- The file of a document is the one of the last document with its id. -/
theorem documentWrites_fileName :
    documentWrites folder extension content documents
        (folder.place ++ [document.fileName extension]) =
      (latest? documents document.videoId).map content := by
  have same (other : Document) :
      (folder.place ++ [other.fileName extension] ==
          folder.place ++ [document.fileName extension]) =
        (other.videoId == document.videoId) := by
    rw [Bool.eq_iff_iff, beq_iff_eq, beq_iff_eq, List.append_cancel_left_eq,
      List.cons.injEq, Document.fileName_inj]
    exact and_iff_left rfl
  rw [documentWrites, latest?, funext same]

/-- A file with another extension is none of the documents'. -/
theorem documentWrites_of_extension
    {place : Location} {name other : String}
    (isExtension : IsExtension extension) (different : other ≠ extension)
    (hasOther : nameExtension? name = some other) :
    documentWrites folder extension content documents (place ++ [name]) = none := by
  refine Decidable.not_not.1 fun written => ?_
  obtain ⟨document, member, same⟩ := exists_of_documentWrites written
  obtain ⟨_, rfl⟩ := List.append_inj' same rfl |>.imp id List.singleton_inj.1
  rw [document.nameExtension?_fileName isExtension] at hasOther
  split at hasOther
  · exact absurd hasOther nofun
  · exact different (Option.some.inj hasOther).symm

namespace FileTree

variable {tree base : FileTree}

/-- The folder is there without a file of the extension, and takes the files of the
documents. -/
structure Accepts (tree : FileTree) (folder : Path) (extension : String)
    (documents : List Document) : Prop where
  checked : checkPath folder = .ok ()
  hasFolder : tree.HasFolder folder folder.place
  vacant : ∀ name, nameExtension? name = some extension →
    tree.node? (folder.place ++ [name]) = none
  writable : ∀ document ∈ documents, VideoIndex.IsSafeId document.videoId ∧
    folder.Fits (document.fileName extension)

theorem absent_of_documentWrites
    {place : Location} (vacant : ∀ name, nameExtension? name = some extension →
      tree.node? (folder.place ++ [name]) = none)
    (named : ∀ document ∈ documents, document.videoId ≠ "")
    (isExtension : IsExtension extension)
    (written : documentWrites folder extension content documents place ≠ none) :
    tree.node? place = none := by
  obtain ⟨document, member, rfl⟩ := exists_of_documentWrites written
  refine vacant _ ?_
  rw [nameExtension?, Document.splitName_fileName (named document member) isExtension]

theorem accepts_of_createFolders
    {made : FileTree} (created : tree.createFolders folder = (.ok (), made))
    (notEmpty : folder.text ≠ "")
    (vacant : ∀ name, nameExtension? name = some extension →
      made.node? (folder.place ++ [name]) = none)
    (writable : ∀ document ∈ documents, VideoIndex.IsSafeId document.videoId ∧
      folder.Fits (document.fileName extension)) :
    made.Accepts folder extension documents where
  checked := (usable_of_createFolders created).resolve_left notEmpty
  hasFolder := by
    obtain ⟨_, location, has⟩ := createFolders_ok created
    have same := has.eq_place
    rwa [same] at has
  vacant := vacant
  writable := writable

namespace Accepts

variable {earlier : List Document}

/-- A document's file is written where there was nothing, or an earlier
document's file. -/
theorem write
    (accepts : base.Accepts folder extension documents)
    (isExtension : IsExtension extension)
    (overlays : tree.Overlays base
      (documentWrites folder extension content earlier))
    (member : document ∈ documents) :
    ∃ other, tree.write (folder.join (document.fileName extension))
        (content document) = .ok other ∧
      other.Overlays base
        (documentWrites folder extension content (earlier ++ [document])) := by
  have ⟨⟨named, noSlash⟩, fits⟩ := accepts.writable document member
  have isName := Document.isName_fileName noSlash isExtension
  have absent : base.node? (folder.place ++ [document.fileName extension]) =
      none := by
    refine accepts.vacant _ ?_
    rw [nameExtension?, Document.splitName_fileName named isExtension]
  have notFolder : base.node? (folder.place ++ [document.fileName extension]) ≠
      some .folder := by
    rw [absent]
    exact (Option.some_ne_none _).symm
  have has := overlays.hasFolder accepts.hasFolder
  refine ⟨_, (has.write_join isName).2
    ⟨fits, overlays.node?_ne_folder notFolder, rfl⟩, ?_⟩
  exact (overlays.put absent (content document)).congr documentWrites_concat

theorem holds
    (accepts : base.Accepts folder extension documents)
    (isExtension : IsExtension extension)
    (overlays : tree.Overlays base
      (documentWrites folder extension content documents)) :
    tree.Holds folder extension
      ((byFileName extension documents).map fun document =>
        (document.fileName extension, content document)) := by
  constructor
  · rw [List.map_map]
    exact List.pairwise_map.2 (increasing_byFileName extension documents)
  · intro name bytes
    rw [List.mem_map]
    constructor
    · rintro ⟨document, member, same⟩
      obtain ⟨rfl, rfl⟩ := Prod.mk.inj same
      have ⟨⟨named, _⟩, _⟩ :=
        accepts.writable document (mem_of_mem_byFileName member)
      refine ⟨?_, overlays.node?_of_some ?_⟩
      · rw [nameExtension?, Document.splitName_fileName named isExtension]
      · rw [documentWrites_fileName, mem_byFileName.1 member]
        rfl
    · rintro ⟨hasExtension, there⟩
      rw [overlays.node?_eq, accepts.vacant name hasExtension] at there
      split at there
      · rename_i written found
        obtain ⟨document, _, place, _⟩ := eq_content_of_documentWrites found
        obtain rfl : name = document.fileName extension := by simpa using place
        rw [documentWrites_fileName] at found
        obtain ⟨last, isLast, rfl⟩ := Option.map_eq_some_iff.1 found
        have sameId := videoId_of_latest? isLast
        refine ⟨last, mem_byFileName.2 (sameId ▸ isLast), ?_⟩
        rw [Document.fileName_inj.2 sameId, Node.file.inj (Option.some.inj there)]
      · cases there

theorem supplies
    (accepts : base.Accepts folder extension documents)
    (isExtension : IsExtension extension)
    (overlays : tree.Overlays base
      (documentWrites folder extension content documents)) :
    tree.Supplies folder extension
      ((byFileName extension documents).map fun document =>
        (document.fileName extension, content document)) where
  isFolder := (overlays.hasFolder accepts.hasFolder).isFolder accepts.checked
  holds := accepts.holds isExtension overlays
  readable := by
    intro file member
    obtain ⟨document, isLast, rfl⟩ := List.mem_map.1 member
    have ⟨⟨_, noSlash⟩, fits⟩ :=
      accepts.writable document (mem_of_mem_byFileName isLast)
    exact ⟨Document.isName_fileName noSlash isExtension, fits⟩

end Accepts

end FileTree

end

end LectureQuiz
