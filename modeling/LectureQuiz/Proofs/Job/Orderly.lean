import LectureQuiz.Proofs.Job
import LectureQuiz.Proofs.FileTree.Kept

/-!
# Orderly jobs

What an orderly job does to the files does not depend on what was reported before
it. Whether it succeeds or fails, it removes no folder, and none of its errors is the
one of an empty pack. Jobs that are composed of orderly ones are orderly.
-/

namespace LectureQuiz.Job

variable {alpha beta : Type} {job : Job alpha} {next : alpha → Job beta}

structure Orderly (job : Job alpha) : Prop where
  run_eq : ∀ (files : FileTree) (earlier : List Progress),
    (job.run.run ⟨files, earlier⟩ : Except Error alpha × Session) =
      ((job.runOn files).1,
        ⟨(job.runOn files).2.files, earlier ++ (job.runOn files).2.progress⟩)
  keepsFolders : ∀ files : FileTree, files.KeepsFolders (job.runOn files).2.files
  error_ne : ∀ (files : FileTree) (selected : Option UInt32),
    (job.runOn files).1 ≠ .error (.nothingToPack selected)

theorem run_files_bind (next : FileTree → Job alpha) (session : Session) :
    ((files >>= next).run.run session : Except Error alpha × Session) =
      (next session.files).run.run session :=
  rfl

theorem run_setFiles_atPath
    (path : Path) (change : FileTree → Except FileFault FileTree) (session : Session) :
    ((do setFiles (← atPath path (change (← files))) : Job Unit).run.run session :
        Except Error Unit × Session) =
      match change session.files with
      | .ok changed => (.ok (), { session with files := changed })
      | .error fault => (.error (Error.ofFault path fault), session) := by
  rw [run_files_bind, run_bind]
  cases change session.files <;> rfl

theorem run_createFolders (path : Path) (session : Session) :
    ((createFolders path).run.run session : Except Error Unit × Session) =
      ((session.files.createFolders path).1.mapError (Error.ofFault path),
        { session with files := (session.files.createFolders path).2 }) := by
  rw [createFolders, run_files_bind]
  rcases session.files.createFolders path with ⟨fault | done, changed⟩ <;> rfl

theorem runOn_bind_of_error
    {files : FileTree} {error : Error} {between : Session}
    (run : job.runOn files = (.error error, between)) :
    (job >>= next).runOn files = (.error error, between) := by
  rw [runOn, run_bind, ← runOn, run]

theorem runOn_bind_of_ok
    {files : FileTree} {value : alpha} {between : Session}
    (run : job.runOn files = (.ok value, between)) (orderly : (next value).Orderly) :
    (job >>= next).runOn files =
      (((next value).runOn between.files).1,
        ⟨((next value).runOn between.files).2.files,
          between.progress ++ ((next value).runOn between.files).2.progress⟩) := by
  rw [runOn, run_bind, ← runOn, run]
  exact orderly.run_eq between.files between.progress

namespace Orderly

theorem bind
    (first : job.Orderly) (second : ∀ value, (next value).Orderly) :
    (job >>= next).Orderly := by
  constructor
  case run_eq =>
    intro files earlier
    rw [run_bind, first.run_eq]
    rcases run : job.runOn files with ⟨error | value, between⟩
    · rw [runOn_bind_of_error run]
    · rw [runOn_bind_of_ok run (second value)]
      dsimp only
      rw [(second value).run_eq, List.append_assoc]
  case keepsFolders =>
    intro files
    have keeps := first.keepsFolders files
    rcases run : job.runOn files with ⟨error | value, between⟩
    · rw [runOn_bind_of_error run]
      rwa [run] at keeps
    · rw [runOn_bind_of_ok run (second value)]
      rw [run] at keeps
      exact keeps.trans ((second value).keepsFolders between.files)
  case error_ne =>
    intro files selected
    have notFirst := first.error_ne files selected
    rcases run : job.runOn files with ⟨error | value, between⟩
    · rw [run] at notFirst
      rw [runOn_bind_of_error run]
      intro same
      exact notFirst (congrArg Except.error (Except.error.inj same))
    · rw [runOn_bind_of_ok run (second value)]
      exact (second value).error_ne between.files selected

/-- A job that reports nothing is orderly when what it does to the files is. -/
theorem of_outcome
    (outcome : FileTree → Except Error alpha × FileTree)
    (run_eq : ∀ session : Session,
      (job.run.run session : Except Error alpha × Session) =
        ((outcome session.files).1, { session with files := (outcome session.files).2 }))
    (keepsFolders : ∀ files : FileTree, files.KeepsFolders (outcome files).2)
    (error_ne : ∀ files selected,
      (outcome files).1 ≠ .error (.nothingToPack selected)) :
    job.Orderly := by
  have runOn_eq (files : FileTree) :
      job.runOn files = ((outcome files).1, ⟨(outcome files).2, []⟩) :=
    run_eq ⟨files, []⟩
  constructor
  case run_eq =>
    intro files earlier
    rw [run_eq, runOn_eq, List.append_nil]
  case keepsFolders =>
    intro files
    rw [runOn_eq]
    exact keepsFolders files
  case error_ne =>
    intro files selected
    rw [runOn_eq]
    exact error_ne files selected

theorem pure (value : alpha) : (Pure.pure value : Job alpha).Orderly := by
  apply of_outcome fun files => (.ok value, files)
  · exact fun _ => rfl
  · exact fun files => .refl files
  · exact fun _ _ => nofun

theorem throw
    {error : Error} (isOther : ∀ selected, error ≠ .nothingToPack selected) :
    (MonadExcept.throw error : Job alpha).Orderly := by
  apply of_outcome fun files => (.error error, files)
  · exact fun _ => rfl
  · exact fun files => .refl files
  · intro _ selected same
    exact isOther selected (Except.error.inj same)

theorem mapM
    {jobOf : alpha → Job beta} (orderly : ∀ input, (jobOf input).Orderly)
    (inputs : List alpha) : (inputs.mapM jobOf).Orderly := by
  induction inputs with
  | nil => exact pure []
  | cons first rest inductionHypothesis =>
      rw [List.mapM_cons]
      apply (orderly first).bind
      intro value
      apply inductionHypothesis.bind
      exact fun values => pure (value :: values)

theorem forM
    {jobOf : alpha → Job PUnit} (orderly : ∀ input, (jobOf input).Orderly)
    (inputs : List alpha) : (inputs.forM jobOf).Orderly := by
  induction inputs with
  | nil => exact pure ()
  | cons first rest inductionHypothesis =>
      exact (orderly first).bind fun _ => inductionHypothesis

theorem files : Job.files.Orderly := by
  apply of_outcome fun files => (.ok files, files)
  · exact fun _ => rfl
  · exact fun files => .refl files
  · exact fun _ _ => nofun

theorem report (event : Progress) : (Job.report event).Orderly := by
  constructor
  case run_eq => exact fun _ _ => rfl
  case keepsFolders => exact fun files => .refl files
  case error_ne => exact fun _ _ => nofun

theorem ofFault_ne (path : Path) (fault : FileFault) (selected : Option UInt32) :
    Error.ofFault path fault ≠ .nothingToPack selected := by
  cases fault <;> exact nofun

theorem atPath (path : Path) (result : Except FileFault alpha) :
    (Job.atPath path result).Orderly := by
  cases result with
  | ok value => exact pure value
  | error fault => exact throw (ofFault_ne path fault)

theorem readBytes (path : Path) : (Job.readBytes path).Orderly :=
  files.bind fun tree => atPath path (tree.read path)

theorem readText (path : Path) : (Job.readText path).Orderly := by
  apply (readBytes path).bind
  intro content
  split
  · exact pure _
  · exact throw fun _ => nofun

theorem readRecords [Record alpha] (path : Path) :
    (Job.readRecords alpha path).Orderly :=
  (readText path).bind fun _ => pure _

/-- The files are changed as a whole, or not at all. -/
theorem setFiles_atPath
    (path : Path) (change : FileTree → Except FileFault FileTree)
    (keepsFolders : ∀ tree other : FileTree, change tree = .ok other →
      tree.KeepsFolders other) :
    (do Job.setFiles (← Job.atPath path (change (← Job.files)))).Orderly := by
  apply of_outcome fun files =>
    match change files with
    | .ok changed => (.ok (), changed)
    | .error fault => (.error (Error.ofFault path fault), files)
  · intro session
    rw [run_setFiles_atPath]
    cases change session.files <;> rfl
  · intro files
    split
    · exact keepsFolders files _ ‹_›
    · exact .refl files
  · intro files selected
    split
    · exact nofun
    · intro same
      exact ofFault_ne path _ selected (Except.error.inj same)

theorem createFolders (path : Path) : (Job.createFolders path).Orderly := by
  apply of_outcome fun files =>
    ((files.createFolders path).1.mapError (Error.ofFault path),
      (files.createFolders path).2)
  · exact run_createFolders path
  · exact fun files => files.keepsFolders_createFolders path
  · intro files selected
    cases (files.createFolders path).1 with
    | ok done =>
        intro same
        cases same
    | error fault =>
        intro same
        exact ofFault_ne path fault selected (Except.error.inj same)

theorem writeText (path : Path) (content : String) :
    (Job.writeText path content).Orderly :=
  setFiles_atPath path _ fun _ _ => FileTree.keepsFolders_write

theorem moveFile (source target : Path) : (Job.moveFile source target).Orderly :=
  setFiles_atPath target _ fun _ _ => FileTree.keepsFolders_moveFile

theorem writeRecords [Record alpha] (path : Path) (records : List alpha) :
    (Job.writeRecords path records).Orderly := by
  have writes := writeText path (Records.render records)
  rw [Job.writeRecords]
  cases path.parent? with
  | none => exact (pure ()).bind fun _ => writes
  | some folder => exact (createFolders folder).bind fun _ => writes

end Orderly

end LectureQuiz.Job
