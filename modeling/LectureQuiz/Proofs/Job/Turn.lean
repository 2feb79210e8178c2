import LectureQuiz.Proofs.Job.Orderly

namespace LectureQuiz

/-- What becomes of a tree of files: whether all goes well, and the tree that is
left. -/
abbrev Effect := FileTree → Except Error Unit × FileTree

/-- One effect after the other, up to the first one that fails. -/
def Effect.inTurn : List Effect → Effect
  | [], files => (.ok (), files)
  | first :: rest, files =>
      match first files with
      | (.ok (), after) => inTurn rest after
      | (.error error, after) => (.error error, after)

namespace Effect

def KeepsFolders (effect : Effect) : Prop :=
  ∀ files : FileTree, files.KeepsFolders (effect files).2

/-- The effects leave the same files and fail alike, but that the first one does not
fail for an empty pack. -/
def Forgives (lenient strict : Effect) : Prop :=
  ∀ files, (lenient files).2 = (strict files).2 ∧
    ∀ error, (lenient files).1 = .error error ↔
      (strict files).1 = .error error ∧ error ≠ .nothingToPack none

theorem inTurn_singleton (effect : Effect) : inTurn [effect] = effect := by
  funext files
  rw [inTurn]
  rcases effect files with ⟨error | ⟨⟩, after⟩ <;> rfl

/-- Forgiveness for what comes last is forgiveness for the whole. -/
theorem Forgives.cons
    {first : Effect} {lenient strict : List Effect}
    (error_ne : ∀ files, (first files).1 ≠ .error (.nothingToPack none))
    (forgives : (inTurn lenient).Forgives (inTurn strict)) :
    (inTurn (first :: lenient)).Forgives (inTurn (first :: strict)) := by
  intro files
  have isOther := error_ne files
  rw [inTurn, inTurn]
  rcases ended : first files with ⟨error | ⟨⟩, after⟩
  · rw [ended] at isOther
    refine ⟨rfl, ?_⟩
    intro other
    refine (and_iff_left_of_imp ?_).symm
    intro failed isEmpty
    exact isOther (failed.trans (congrArg Except.error isEmpty))
  · exact forgives after

end Effect

namespace Job

variable {alpha beta gamma : Type} {job : Job alpha} {next : alpha → Job beta}
  {effect : Effect} {effects : List Effect}

/-- What a job does to a tree of files. -/
def ending (job : Job alpha) : Effect := fun files =>
  ((job.runOn files).1.map fun _ => (), (job.runOn files).2.files)

/-- The job has the effect, whatever was reported before. -/
def EndsAs (job : Job alpha) (effect : Effect) : Prop :=
  ∀ session : Session,
    ((job.run.run session : Except Error alpha × Session).1.map (fun _ => ()),
      (job.run.run session : Except Error alpha × Session).2.files) =
        effect session.files

theorem EndsAs.ending_eq (ends : job.EndsAs effect) : job.ending = effect :=
  funext fun files => ends ⟨files, []⟩

theorem Orderly.endsAs (orderly : job.Orderly) : job.EndsAs job.ending := by
  intro session
  rw [orderly.run_eq session.files session.progress]
  rfl

theorem Orderly.keepsFolders_ending (orderly : job.Orderly) :
    job.ending.KeepsFolders :=
  orderly.keepsFolders

theorem Orderly.ending_ne (orderly : job.Orderly) (files : FileTree) :
    (job.ending files).1 ≠ .error (.nothingToPack none) := by
  have isOther := orderly.error_ne files none
  rw [ending]
  cases outcome : (job.runOn files).1 with
  | ok value => exact nofun
  | error error =>
      rw [outcome] at isOther
      intro same
      exact isOther (congrArg Except.error (Except.error.inj same))

theorem endsAs_pure (value : alpha) :
    (pure value : Job alpha).EndsAs (.inTurn []) :=
  fun _ => rfl

theorem EndsAs.map (ends : job.EndsAs effect) (convert : alpha → beta) :
    (job >>= fun value => pure (convert value)).EndsAs effect := by
  intro session
  rw [← ends session, run_bind]
  rcases (job.run.run session : Except Error alpha × Session) with
    ⟨error | value, between⟩ <;> rfl

theorem EndsAs.report
    {rest : Job beta} (ends : rest.EndsAs effect) (event : Progress) :
    (Job.report event >>= fun _ => rest).EndsAs effect :=
  fun session => ends { session with progress := session.progress ++ [event] }

/-- A check that is passed changes nothing. -/
theorem endsAs_of_passed
    {result : Except Error alpha} {value : alpha} (passed : result = .ok value)
    (ends : (next value).EndsAs effect) :
    (liftM result >>= next : Job beta).EndsAs effect := by
  subst passed
  exact ends

theorem Orderly.endsAs_bind
    (orderly : job.Orderly) (ends : ∀ value, (next value).EndsAs (.inTurn effects)) :
    (job >>= next).EndsAs (.inTurn (job.ending :: effects)) := by
  intro session
  rw [run_bind, orderly.run_eq session.files session.progress, Effect.inTurn, ending]
  rcases job.runOn session.files with ⟨error | value, between⟩
  · rfl
  · exact ends value _

/-- The first effect may be that of two jobs, the second of which needs the result
of the first. -/
theorem Orderly.endsAs_bind_bind
    {inner : alpha → Job gamma} (orderly : job.Orderly)
    (orderlyInner : ∀ value, (inner value).Orderly)
    (ends : ∀ value, (next value).EndsAs (.inTurn ((inner value).ending :: effects))) :
    (job >>= next).EndsAs (.inTurn ((job >>= inner).ending :: effects)) := by
  intro session
  rw [run_bind, orderly.run_eq session.files session.progress, Effect.inTurn, ending]
  rcases run : job.runOn session.files with ⟨error | value, between⟩
  · rw [runOn_bind_of_error run]
    rfl
  · rw [runOn_bind_of_ok run (orderlyInner value)]
    exact ends value _

end Job

end LectureQuiz
