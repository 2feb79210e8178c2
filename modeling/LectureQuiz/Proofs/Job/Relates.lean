import LectureQuiz.Proofs.Job.Failing
import LectureQuiz.Proofs.Job.Orderly

/-!
# What jobs do to files

A relation between the files before and after is shown of a job by showing it of the parts
of the job, as long as the relation holds when nothing is done and of what is done in
turn. It may depend on the error that the job ends with, if any: then only the last part
that is done can end with one. A job may be held to a relation always, or only when it
fails.
-/

namespace LectureQuiz

/-- The relation holds when nothing is done, and of what is done in turn. -/
structure FileTree.IsChange (relation : FileTree → FileTree → Prop) : Prop where
  refl : ∀ tree, relation tree tree
  trans : ∀ {tree middle other}, relation tree middle → relation middle other →
    relation tree other

/-- As for a change, where everything that is done before the end goes well. -/
structure FileTree.IsCourse (relation : Option Error → FileTree → FileTree → Prop) :
    Prop where
  refl : ∀ tree, relation none tree tree
  trans : ∀ {ending tree middle other}, relation none tree middle →
    relation ending middle other → relation ending tree other

theorem FileTree.IsChange.isCourse
    {relation : FileTree → FileTree → Prop} (isChange : FileTree.IsChange relation) :
    FileTree.IsCourse fun _ => relation :=
  ⟨isChange.refl, isChange.trans⟩

namespace Job

variable {alpha beta : Type} {job : Job alpha} {next : alpha → Job beta}

/-- However the job ends, it relates the files that it found to those that it leaves. -/
structure Ends (job : Job alpha) (relation : Option Error → FileTree → FileTree → Prop) :
    Prop where
  yields : ∀ {session after : Session} {value : alpha},
    job.Yields session value after → relation none session.files after.files
  fails : ∀ {session after : Session} {error : Error},
    job.Fails session error after → relation (some error) session.files after.files

section Endings

variable {relation : Option Error → FileTree → FileTree → Prop}
  (isCourse : FileTree.IsCourse relation)

include isCourse

theorem Ends.bind
    (first : job.Ends relation) (second : ∀ value, (next value).Ends relation) :
    (job >>= next).Ends relation := by
  constructor
  case yields =>
    intro session after value yields
    obtain ⟨result, between, yieldsFirst, yieldsNext⟩ := yields_bind.1 yields
    exact isCourse.trans (first.yields yieldsFirst) ((second result).yields yieldsNext)
  case fails =>
    intro session after error fails
    rcases fails_bind.1 fails with failsFirst | ⟨result, between, yieldsFirst, failsNext⟩
    · exact first.fails failsFirst
    · exact isCourse.trans (first.yields yieldsFirst) ((second result).fails failsNext)

theorem ends_pure (value : alpha) : (Pure.pure value : Job alpha).Ends relation where
  yields yields := by
    obtain ⟨_, rfl⟩ := yields_pure.1 yields
    exact isCourse.refl _
  fails fails := absurd fails not_fails_pure

theorem ends_files : Job.files.Ends relation where
  yields yields := by
    obtain ⟨_, rfl⟩ := yields_files.1 yields
    exact isCourse.refl _
  fails fails := absurd fails not_fails_files

theorem ends_mapM
    {jobOf : alpha → Job beta} {inputs : List alpha}
    (ends : ∀ input ∈ inputs, (jobOf input).Ends relation) :
    (inputs.mapM jobOf).Ends relation := by
  induction inputs with
  | nil => exact ends_pure isCourse []
  | cons first rest inductionHypothesis =>
      rw [List.forall_mem_cons] at ends
      rw [List.mapM_cons]
      apply ends.1.bind isCourse
      intro value
      exact (inductionHypothesis ends.2).bind isCourse fun values =>
        ends_pure isCourse (value :: values)

theorem ends_forM
    {jobOf : alpha → Job PUnit} {inputs : List alpha}
    (ends : ∀ input ∈ inputs, (jobOf input).Ends relation) :
    (inputs.forM jobOf).Ends relation := by
  induction inputs with
  | nil => exact ends_pure isCourse ()
  | cons first rest inductionHypothesis =>
      rw [List.forall_mem_cons] at ends
      exact ends.1.bind isCourse fun _ => inductionHypothesis ends.2

end Endings

variable {relation : FileTree → FileTree → Prop}

/-- However the job ends, it relates the files that it found to those that it leaves. -/
def Relates (job : Job alpha) (relation : FileTree → FileTree → Prop) : Prop :=
  ∀ session : Session, relation session.files
    (job.run.run session : Except Error alpha × Session).2.files

def RelatesOnError (job : Job alpha) (relation : FileTree → FileTree → Prop) : Prop :=
  ∀ (session : Session) (error : Error),
    (job.run.run session : Except Error alpha × Session).1 = .error error →
      relation session.files (job.run.run session : Except Error alpha × Session).2.files

theorem relates_iff_ends : job.Relates relation ↔ job.Ends fun _ => relation := by
  constructor
  · intro relates
    constructor
    · intro session after value yields
      have related := relates session
      rwa [yields] at related
    · intro session after error fails
      have related := relates session
      rwa [fails] at related
  · intro ends session
    rcases job.yields_or_fails session with ⟨value, after, yields⟩ | ⟨error, after, fails⟩
    · rw [yields]
      exact ends.yields yields
    · rw [fails]
      exact ends.fails fails

section Composed

variable (isChange : FileTree.IsChange relation)

include isChange

theorem Relates.bind
    (first : job.Relates relation) (second : ∀ value, (next value).Relates relation) :
    (job >>= next).Relates relation :=
  relates_iff_ends.2 <| (relates_iff_ends.1 first).bind isChange.isCourse fun value =>
    relates_iff_ends.1 (second value)

theorem relates_pure (value : alpha) : (Pure.pure value : Job alpha).Relates relation :=
  fun session => isChange.refl session.files

theorem relates_files : Job.files.Relates relation :=
  fun session => isChange.refl session.files

theorem relates_report (event : Progress) : (Job.report event).Relates relation :=
  fun session => isChange.refl session.files

theorem relates_throw (error : Error) : (throw error : Job alpha).Relates relation :=
  fun session => isChange.refl session.files

theorem relates_liftM (result : Except Error alpha) :
    (liftM result : Job alpha).Relates relation := by
  cases result with
  | ok value => exact relates_pure isChange value
  | error error => exact relates_throw isChange error

theorem relates_atPath (path : Path) (result : Except FileFault alpha) :
    (Job.atPath path result).Relates relation := by
  cases result with
  | ok value => exact relates_pure isChange value
  | error fault => exact relates_throw isChange _

theorem relates_readText (path : Path) : (Job.readText path).Relates relation := by
  have readsBytes : (Job.readBytes path).Relates relation :=
    (relates_files isChange).bind isChange fun _ => relates_atPath isChange path _
  apply readsBytes.bind isChange
  intro content
  split
  · exact relates_pure isChange _
  · exact relates_throw isChange _

theorem relates_readRecords [Record alpha] (path : Path) :
    (Job.readRecords alpha path).Relates relation :=
  (relates_readText isChange path).bind isChange fun _ => relates_pure isChange _

theorem relates_forM
    {jobOf : alpha → Job PUnit} {inputs : List alpha}
    (relates : ∀ input ∈ inputs, (jobOf input).Relates relation) :
    (inputs.forM jobOf).Relates relation :=
  relates_iff_ends.2 <| ends_forM isChange.isCourse fun input member =>
    relates_iff_ends.1 (relates input member)

theorem relates_mapM
    {jobOf : alpha → Job beta} {inputs : List alpha}
    (relates : ∀ input ∈ inputs, (jobOf input).Relates relation) :
    (inputs.mapM jobOf).Relates relation :=
  relates_iff_ends.2 <| ends_mapM isChange.isCourse fun input member =>
    relates_iff_ends.1 (relates input member)

/-- When the job fails, the first part has failed, or the second one after it. -/
theorem RelatesOnError.bind
    (first : job.Relates relation) (second : ∀ value, (next value).RelatesOnError relation) :
    (job >>= next).RelatesOnError relation := by
  intro session error failed
  have related := first session
  rw [run_bind] at failed ⊢
  rcases run : (job.run.run session : Except Error alpha × Session) with
    ⟨other | value, between⟩
  · rw [run] at related
    exact related
  · rw [run] at related failed
    exact isChange.trans related (second value between error failed)

end Composed

theorem RelatesOnError.bind_pure
    {result : alpha → beta} (relates : job.RelatesOnError relation) :
    (job >>= fun value => Pure.pure (result value)).RelatesOnError relation := by
  intro session error failed
  have related := relates session
  rw [run_bind] at failed ⊢
  rcases run : (job.run.run session : Except Error alpha × Session) with
    ⟨other | value, between⟩
  · rw [run] at related
    exact related other rfl
  · rw [run] at failed
    exact absurd failed nofun

/-- A job that creates a folder first changes the rest in the files where it is there. -/
theorem RelatesOnError.createFolders_bind
    (refl : ∀ tree, relation tree tree) {path : Path} {rest : Job alpha}
    (relates : rest.RelatesOnError relation) {session : Session} {error : Error}
    (failed : ((createFolders path >>= fun _ => rest).run.run session :
      Except Error alpha × Session).1 = .error error) :
    relation (session.files.createFolders path).2
      ((createFolders path >>= fun _ => rest).run.run session :
        Except Error alpha × Session).2.files := by
  rw [run_bind, run_createFolders] at failed ⊢
  rcases created : session.files.createFolders path with ⟨fault | done, made⟩
  · exact refl made
  · rw [created] at failed
    exact relates { session with files := made } error failed

/-- However the job ends, the files are as they were. -/
abbrev OnlyReads (job : Job alpha) : Prop :=
  job.Relates fun tree other => other = tree

/-- A job that cannot read what it has to keeps the work after it from being done. -/
theorem OnlyReads.fails_bind
    {session : Session} (reads : job.OnlyReads)
    (cannot : ∀ {value after}, ¬job.Yields session value after) :
    ∃ error after, (job >>= next).Fails session error after ∧
      after.files = session.files := by
  rcases job.yields_or_fails session with ⟨value, after, yields⟩ | ⟨error, after, fails⟩
  · exact absurd yields cannot
  · exact ⟨error, after, Job.fails_bind.2 (Or.inl fails),
      (relates_iff_ends.1 reads).fails fails⟩

/-- When jobs that only read have succeeded one after the other, each has done so on the
files that there were. -/
theorem OnlyReads.yields_of_mem
    {jobOf : alpha → Job beta} {inputs : List alpha} {input : alpha} {values : List beta}
    {session after : Session} (reads : ∀ input, (jobOf input).OnlyReads)
    (yields : (inputs.mapM jobOf).Yields session values after) (member : input ∈ inputs) :
    ∃ between value other, (jobOf input).Yields between value other ∧
      between.files = session.files := by
  induction inputs generalizing session values with
  | nil => exact absurd member List.not_mem_nil
  | cons first rest inductionHypothesis =>
      obtain ⟨_, _, _, yieldsFirst, yieldsRest, _⟩ := yields_mapM_cons.1 yields
      rcases List.mem_cons.1 member with rfl | isLater
      · exact ⟨session, _, _, yieldsFirst, rfl⟩
      · have same := (relates_iff_ends.1 (reads first)).yields yieldsFirst
        obtain ⟨between, value, other, yieldsInput, sameBetween⟩ :=
          inductionHypothesis yieldsRest isLater
        exact ⟨between, value, other, yieldsInput, sameBetween.trans same⟩

end Job

theorem FileTree.isChange_eq : FileTree.IsChange fun tree other => other = tree :=
  ⟨fun _ => rfl, fun first second => second.trans first⟩

end LectureQuiz
