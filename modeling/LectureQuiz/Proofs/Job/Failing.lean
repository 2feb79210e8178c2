import LectureQuiz.Proofs.Job

namespace LectureQuiz.Job

variable {alpha beta : Type} {session after : Session} {error : Error}

/-- The job fails on the session with the error, and leaves the other session. -/
def Fails (job : Job alpha) (session : Session) (error : Error) (after : Session) :
    Prop :=
  (job.run.run session : Except Error alpha × Session) = (.error error, after)

theorem fails_iff_runOn {job : Job alpha} {files : FileTree} :
    job.Fails ⟨files, []⟩ error after ↔ job.runOn files = (.error error, after) :=
  Iff.rfl

theorem yields_or_fails (job : Job alpha) (session : Session) :
    (∃ value after, job.Yields session value after) ∨
      ∃ error after, job.Fails session error after := by
  rcases run : (job.run.run session : Except Error alpha × Session) with
    ⟨error | value, after⟩
  · exact Or.inr ⟨error, after, run⟩
  · exact Or.inl ⟨value, after, run⟩

theorem Fails.not_yields
    {job : Job alpha} {value : alpha} {other : Session}
    (fails : job.Fails session error after) : ¬job.Yields session value other :=
  fun yields => absurd (congrArg Prod.fst (fails.symm.trans yields)) nofun

theorem fails_unique
    {job : Job alpha} {second : Error} {other : Session}
    (fails : job.Fails session error after) (also : job.Fails session second other) :
    error = second ∧ after = other := by
  have same := fails.symm.trans also
  rw [Prod.mk.injEq, Except.error.injEq] at same
  exact same

theorem fails_bind {job : Job alpha} {next : alpha → Job beta} :
    (job >>= next).Fails session error after ↔
      job.Fails session error after ∨
        ∃ value between, job.Yields session value between ∧
          (next value).Fails between error after := by
  rw [Fails, run_bind]
  rcases run : (job.run.run session : Except Error alpha × Session) with
    ⟨other | value, between⟩
  · constructor
    · intro failed
      rw [Prod.mk.injEq, Except.error.injEq] at failed
      rw [failed.1, failed.2] at run
      exact Or.inl run
    · rintro (fails | ⟨value, middle, yields, _⟩)
      · rw [Fails, run, Prod.mk.injEq, Except.error.injEq] at fails
        rw [fails.1, fails.2]
      · exact absurd (congrArg Prod.fst (run.symm.trans yields)) nofun
  · constructor
    · exact fun failed => Or.inr ⟨value, between, run, failed⟩
    · rintro (fails | ⟨result, middle, yields, failed⟩)
      · exact absurd (congrArg Prod.fst (run.symm.trans fails)) nofun
      · obtain ⟨rfl, rfl⟩ := yields_unique yields run
        exact failed

@[simp] theorem not_fails_pure {value : alpha} :
    ¬(pure value : Job alpha).Fails session error after :=
  fun fails => absurd (congrArg Prod.fst fails) nofun

theorem fails_mapM_cons
    {job : alpha → Job beta} {first : alpha} {rest : List alpha} :
    ((first :: rest).mapM job).Fails session error after ↔
      (job first).Fails session error after ∨
        ∃ value between, (job first).Yields session value between ∧
          (rest.mapM job).Fails between error after := by
  simp only [List.mapM_cons, fails_bind, not_fails_pure, and_false, exists_false, or_false]

@[simp] theorem fails_throw {thrown : Error} :
    (throw thrown : Job alpha).Fails session error after ↔
      error = thrown ∧ after = session := by
  change ((Except.error thrown, session) : Except Error alpha × Session) =
    (.error error, after) ↔ _
  simp [eq_comm]

@[simp] theorem not_fails_files : ¬files.Fails session error after :=
  fun fails => absurd (congrArg Prod.fst fails) nofun

@[simp] theorem not_fails_report {event : Progress} :
    ¬(report event).Fails session error after :=
  fun fails => absurd (congrArg Prod.fst fails) nofun

@[simp] theorem fails_atPath {path : Path} {result : Except FileFault alpha} :
    (atPath path result).Fails session error after ↔
      ∃ fault, result = .error fault ∧ error = .ofFault path fault ∧ after = session := by
  cases result with
  | ok given => exact iff_of_false not_fails_pure nofun
  | error fault => simp [atPath]

@[simp] theorem fails_readBytes {path : Path} :
    (readBytes path).Fails session error after ↔
      ∃ fault, session.files.read path = .error fault ∧ error = .ofFault path fault ∧
        after = session := by
  simp [readBytes, fails_bind, and_assoc]

@[simp] theorem not_fails_setFiles {tree : FileTree} :
    ¬(setFiles tree).Fails session error after :=
  fun fails => absurd (congrArg Prod.fst fails) nofun

theorem fails_createFolders {path : Path} :
    (createFolders path).Fails session error after ↔
      ∃ fault other, session.files.createFolders path = (.error fault, other) ∧
        error = .ofFault path fault ∧ after = { session with files := other } := by
  simp [createFolders, fails_bind, and_assoc, Prod.ext_iff]

/-- Nothing is written by a job that cannot write. -/
theorem fails_writeText {path : Path} {content : String} :
    (writeText path content).Fails session error after ↔
      ∃ fault, session.files.write path content.toUTF8 = .error fault ∧
        error = .ofFault path fault ∧ after = session := by
  simp [writeText, fails_bind, and_assoc]

theorem fails_moveFile {source target : Path} :
    (moveFile source target).Fails session error after ↔
      ∃ fault, session.files.moveFile source target = .error fault ∧
        error = .ofFault target fault ∧ after = session := by
  simp [moveFile, fails_bind, and_assoc]

end LectureQuiz.Job
