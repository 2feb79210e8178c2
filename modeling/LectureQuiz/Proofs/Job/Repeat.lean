import LectureQuiz.Proofs.FileTree.Update
import LectureQuiz.Proofs.Job

/-!
# Jobs that repeat themselves

A job repeats itself on a tree when it yields one value there and leaves the tree as
it was. Jobs that are composed of such jobs are such jobs. What a job has only read in
one tree it reads again in another, as long as the files are the same.
-/

namespace LectureQuiz.Job

variable {alpha beta : Type} {job : Job alpha} {next : alpha → Job beta}
  {value : alpha} {result : beta} {tree other : FileTree}

/-- On every tree with the same nodes the job yields the value, and leaves such a tree
again. -/
def Repeats (job : Job alpha) (value : alpha) (tree : FileTree) : Prop :=
  ∀ session : Session, session.files.Like tree →
    ∃ after, job.Yields session value after ∧ after.files.Like tree

namespace Repeats

theorem bind
    (first : job.Repeats value tree) (second : (next value).Repeats result tree) :
    (job >>= next).Repeats result tree := by
  intro session like
  obtain ⟨between, yields, likeBetween⟩ := first session like
  obtain ⟨after, yieldsNext, likeAfter⟩ := second between likeBetween
  exact ⟨after, yields_bind.2 ⟨value, between, yields, yieldsNext⟩, likeAfter⟩

theorem pure (value : alpha) (tree : FileTree) :
    (Pure.pure value : Job alpha).Repeats value tree :=
  fun session like => ⟨session, yields_pure.2 ⟨rfl, rfl⟩, like⟩

theorem report (event : Progress) (tree : FileTree) :
    (Job.report event).Repeats () tree :=
  fun _ like => ⟨_, yields_report.2 rfl, like⟩

/-- What was lifted from a success succeeds again. -/
theorem liftM
    {outcome : Except Error alpha} (success : outcome = .ok value)
    (tree : FileTree) : (MonadLift.monadLift outcome : Job alpha).Repeats value tree :=
  fun session like => ⟨session, yields_liftM.2 ⟨success, rfl⟩, like⟩

theorem createFolders
    {path : Path} {location : Location} (has : tree.HasFolder path location)
    (usable : path.text = "" ∨ FileTree.checkPath path = .ok ()) :
    (Job.createFolders path).Repeats () tree := by
  intro session like
  have hasToo := has.of_folders like.symm.keepsFolders
  have created := FileTree.createFolders_of_hasFolder hasToo usable
  exact ⟨session, yields_createFolders.2 ⟨session.files, created, rfl⟩, like⟩

/-- Writing a file of records that is there already repeats itself. -/
theorem writeRecords
    [Record alpha] {path : Path} {records : List alpha} {place : Location}
    (created : tree.createAll path.parent?.toList = some tree)
    (isTarget : tree.target path = .ok place)
    (isFile : tree.node? place =
      some (.file (Records.render records).toUTF8)) :
    (Job.writeRecords path records).Repeats () tree := by
  intro session like
  have keeps := like.symm.keepsFolders
  have createdToo := FileTree.createAll_of_kept created keeps
  have isTargetToo := FileTree.target_of_keepsFolders isTarget keeps
  have inside : place.isAnchor = false := by
    obtain ⟨_, inner, name, isName, rfl⟩ := FileTree.eq_place_of_target isTarget
    exact isName.isAnchor_append inner
  have isFileToo := (like place).trans isFile
  have notFolder : session.files.node? place ≠ some .folder := by
    rw [isFileToo]
    exact nofun
  refine ⟨_, yields_writeRecords.2 ⟨session.files, _, createdToo,
    FileTree.write_eq_ok.2 ⟨place, isTargetToo, notFolder, rfl⟩, rfl⟩, ?_⟩
  intro other
  by_cases same : other = place
  · subst same
    exact (FileTree.node?_put_self _ _ inside).trans isFile.symm
  · exact (FileTree.node?_put_of_ne _ _ same).trans (like other)

end Repeats

/-- The job only reads the first tree, and repeats on the other tree what it has
read. -/
def Echoes (job : Job alpha) (tree other : FileTree) : Prop :=
  ∀ (session after : Session) (value : alpha), session.files = tree →
    job.Yields session value after →
      after.files = tree ∧ job.Repeats value other

namespace Echoes

theorem bind
    (first : job.Echoes tree other)
    (second : ∀ (session after : Session) (value : alpha), session.files = tree →
      job.Yields session value after → (next value).Echoes tree other) :
    (job >>= next).Echoes tree other := by
  intro session after result isTree yields
  obtain ⟨value, between, yieldsFirst, yieldsNext⟩ := yields_bind.1 yields
  obtain ⟨isTreeStill, repeats⟩ := first session between value isTree yieldsFirst
  obtain ⟨isTreeAfter, repeatsNext⟩ :=
    second session between value isTree yieldsFirst between after result isTreeStill
      yieldsNext
  exact ⟨isTreeAfter, repeats.bind repeatsNext⟩

theorem pure (value : alpha) : (Pure.pure value : Job alpha).Echoes tree other := by
  intro session after result isTree yields
  obtain ⟨rfl, rfl⟩ := yields_pure.1 yields
  exact ⟨isTree, .pure _ _⟩

theorem report (event : Progress) : (Job.report event).Echoes tree other := by
  intro session after result isTree yields
  obtain rfl := yields_report.1 yields
  exact ⟨isTree, .report _ _⟩

theorem mapM
    {jobOf : alpha → Job beta} {inputs : List alpha}
    (echoes : ∀ input ∈ inputs, (jobOf input).Echoes tree other) :
    (inputs.mapM jobOf).Echoes tree other := by
  induction inputs with
  | nil => exact pure []
  | cons first rest inductionHypothesis =>
      rw [List.forall_mem_cons] at echoes
      rw [List.mapM_cons]
      refine echoes.1.bind fun _ _ value _ _ => ?_
      exact (inductionHypothesis echoes.2).bind fun _ _ values _ _ =>
        pure (value :: values)

theorem readRecords
    [Record alpha] {path : Path} (keeps : tree.KeepsFolders other)
    (same : tree.SameFile other path.place) :
    (Job.readRecords alpha path).Echoes tree other := by
  rintro session after records rfl yields
  obtain ⟨⟨content, text, isRead, isText, isRecords⟩, rfl⟩ :=
    yields_readRecords.1 yields
  refine ⟨rfl, fun session like => ⟨session, ?_, like⟩⟩
  have isReadHere := like.symm.read (same.read keeps isRead)
  exact yields_readRecords.2 ⟨⟨content, text, isReadHere, isText, isRecords⟩, rfl⟩

end Echoes

/-- The job takes the first tree to the second one, changes files at most within reach,
and repeats itself wherever what it has read and what it has left is the same. -/
structure Footprint (job : Job alpha) (value : alpha) (tree final : FileTree)
    (reads reach : Location → Prop) : Prop where
  alters : tree.Alters final reach
  repeats : ∀ other : FileTree, final.KeepsFolders other →
    (∀ place, reads place → tree.SameFile other place) →
    (∀ place, reach place → final.SameFile other place) → job.Repeats value other

/-- A job that only reads leaves nothing. -/
theorem Echoes.footprint
    {reads : Location → Prop} {session after : Session}
    (echoes : ∀ other : FileTree, session.files.KeepsFolders other →
      (∀ place, reads place → session.files.SameFile other place) →
        job.Echoes session.files other)
    (yields : job.Yields session value after) :
    after.files = session.files ∧
      job.Footprint value session.files session.files reads fun _ => False := by
  have isTree := (echoes session.files (.refl _) (fun _ _ => .refl _ _) session after
    value rfl yields).1
  refine ⟨isTree, ⟨.refl _, fun _ _ => .refl _ _⟩, fun other keeps sameRead _ => ?_⟩
  exact (echoes other keeps sameRead session after value rfl yields).2

/-- A job that only works on the value of another one has its footprint. -/
theorem Footprint.of_yields_iff
    {whole : Job beta} {work : alpha → beta} {final : FileTree}
    {reads reach : Location → Prop}
    (footprint : job.Footprint value tree final reads reach)
    (iff : ∀ (session after : Session) (result : beta),
      whole.Yields session result after ↔
        ∃ value, job.Yields session value after ∧ result = work value) :
    whole.Footprint (work value) tree final reads reach := by
  refine ⟨footprint.alters, fun other keeps sameRead sameLeft session like => ?_⟩
  obtain ⟨after, yields, likeAfter⟩ :=
    footprint.repeats other keeps sameRead sameLeft session like
  exact ⟨after, (iff _ _ _).2 ⟨value, yields, rfl⟩, likeAfter⟩

end LectureQuiz.Job
