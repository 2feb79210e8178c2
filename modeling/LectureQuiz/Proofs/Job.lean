import LectureQuiz.Job
import LectureQuiz.Proofs.FileTree.Folder

/-!
# Successful jobs

A job yields a value on a session when it ends well there. A composed job yields
exactly what its parts yield one after the other, so a run is taken apart and
put together by the same laws.
-/

namespace LectureQuiz.Job

variable {alpha beta : Type} {session after : Session}

/-- The job succeeds on the session with the value, and leaves the other
session. -/
def Yields (job : Job alpha) (session : Session) (value : alpha)
    (after : Session) : Prop :=
  (job.run.run session : Except Error alpha × Session) = (.ok value, after)

theorem yields_iff_runOn {job : Job alpha} {files : FileTree} {value : alpha} :
    job.Yields ⟨files, []⟩ value after ↔ job.runOn files = (.ok value, after) :=
  Iff.rfl

theorem yields_unique
    {job : Job alpha} {first second : alpha} {other : Session}
    (yields : job.Yields session first after)
    (also : job.Yields session second other) : first = second ∧ after = other := by
  have same := yields.symm.trans also
  rw [Prod.mk.injEq, Except.ok.injEq] at same
  exact same

theorem exists_of_isOk
    {job : Job alpha} {files : FileTree}
    (isOk : (job.runOn files).1.isOk = true) :
    ∃ value, job.runOn files = (.ok value, (job.runOn files).2) := by
  rcases run : job.runOn files with ⟨error | value, session⟩
  · rw [run] at isOk
    exact absurd isOk nofun
  · exact ⟨value, rfl⟩

theorem exists_of_not_isOk
    {job : Job alpha} {files : FileTree}
    (notOk : (job.runOn files).1.isOk = false) :
    ∃ error, job.runOn files = (.error error, (job.runOn files).2) := by
  rcases run : job.runOn files with ⟨error | value, session⟩
  · exact ⟨error, rfl⟩
  · rw [run] at notOk
    exact absurd notOk nofun

theorem runOn_of_toOption
    {job : Job alpha} {files : FileTree} {value : alpha}
    (isValue : (job.runOn files).1.toOption = some value) :
    job.runOn files = (.ok value, (job.runOn files).2) := by
  rcases run : job.runOn files with ⟨error | other, session⟩
  · rw [run] at isValue
    exact absurd isValue nofun
  · rw [run] at isValue
    rw [Option.some.inj isValue]

theorem run_bind (job : Job alpha) (next : alpha → Job beta) (session : Session) :
    ((job >>= next).run.run session : Except Error beta × Session) =
      match (job.run.run session : Except Error alpha × Session) with
      | (.ok value, between) => (next value).run.run between
      | (.error error, between) => (.error error, between) := by
  rw [ExceptT.run_bind, StateT.run_bind]
  change (match (job.run.run session : Except Error alpha × Session) with
    | (result, between) => _) = _
  rcases (job.run.run session : Except Error alpha × Session) with
    ⟨error | value, between⟩ <;> rfl

theorem yields_bind {job : Job alpha} {next : alpha → Job beta} {value : beta} :
    (job >>= next).Yields session value after ↔
      ∃ first between, job.Yields session first between ∧
        (next first).Yields between value after := by
  rw [Yields, run_bind]
  constructor
  · intro run
    split at run
    · exact ⟨_, _, ‹_›, run⟩
    · exact absurd (congrArg Prod.fst run) nofun
  · rintro ⟨first, between, done, doneNext⟩
    rw [Yields] at done
    rw [done]
    exact doneNext

@[simp] theorem yields_pure {value result : alpha} :
    (pure value : Job alpha).Yields session result after ↔
      result = value ∧ after = session := by
  change ((Except.ok value, session) : Except Error alpha × Session) =
    (.ok result, after) ↔ _
  simp [eq_comm]

@[simp] theorem not_yields_throw {error : Error} {value : alpha} :
    ¬(throw error : Job alpha).Yields session value after := by
  change ¬((Except.error error, session) : Except Error alpha × Session) =
    (.ok value, after)
  simp

@[simp] theorem yields_liftM {result : Except Error alpha} {value : alpha} :
    (liftM result : Job alpha).Yields session value after ↔
      result = .ok value ∧ after = session := by
  cases result with
  | ok given =>
      change (pure given : Job alpha).Yields session value after ↔ _
      rw [yields_pure, Except.ok.injEq, @eq_comm _ value]
  | error error =>
      change (throw error : Job alpha).Yields session value after ↔ _
      simp

theorem yields_mapM_cons
    {job : alpha → Job beta} {first : alpha} {rest : List alpha}
    {values : List beta} :
    ((first :: rest).mapM job).Yields session values after ↔
      ∃ value between others, (job first).Yields session value between ∧
        (rest.mapM job).Yields between others after ∧
        values = value :: others := by
  simp only [List.mapM_cons, yields_bind, yields_pure]
  constructor
  · rintro ⟨value, between, done, others, _, doneRest, rfl, rfl⟩
    exact ⟨value, between, others, done, doneRest, rfl⟩
  · rintro ⟨value, between, others, done, doneRest, rfl⟩
    exact ⟨value, between, done, others, after, doneRest, rfl, rfl⟩

@[simp] theorem yields_mapM_nil {job : alpha → Job beta} {values : List beta} :
    (([] : List alpha).mapM job).Yields session values after ↔
      values = [] ∧ after = session := by
  rw [List.mapM_nil, yields_pure]

@[simp] theorem yields_forM_cons
    {job : alpha → Job PUnit} {first : alpha} {rest : List alpha}
    {value : PUnit} :
    ((first :: rest).forM job).Yields session value after ↔
      ∃ between, (job first).Yields session () between ∧
        (rest.forM job).Yields between () after := by
  change (job first >>= fun _ => rest.forM job).Yields session value after ↔ _
  rw [yields_bind]
  exact ⟨fun ⟨(), done⟩ => done, fun done => ⟨(), done⟩⟩

@[simp] theorem yields_forM_nil {job : alpha → Job PUnit} {value : PUnit} :
    (([] : List alpha).forM job).Yields session value after ↔ after = session := by
  change (pure () : Job PUnit).Yields session value after ↔ _
  simp

/-- The job ends well on the session. -/
def Succeeds (job : Job alpha) (session : Session) : Prop :=
  ∃ value after, job.Yields session value after

theorem isOk_runOn_iff {job : Job alpha} {files : FileTree} :
    (job.runOn files).1.isOk = true ↔ job.Succeeds ⟨files, []⟩ := by
  constructor
  · intro isOk
    obtain ⟨value, run⟩ := exists_of_isOk isOk
    exact ⟨value, _, yields_iff_runOn.2 run⟩
  · intro succeeds
    obtain ⟨value, after, run⟩ := succeeds
    rw [yields_iff_runOn.1 run]
    rfl

theorem succeeds_bind {job : Job alpha} {next : alpha → Job beta} :
    (job >>= next).Succeeds session ↔
      ∃ value between, job.Yields session value between ∧
        (next value).Succeeds between := by
  simp only [Succeeds, yields_bind]
  constructor
  · intro succeeds
    obtain ⟨value, after, first, between, done, doneNext⟩ := succeeds
    exact ⟨first, between, done, value, after, doneNext⟩
  · intro succeeds
    obtain ⟨first, between, done, value, after, doneNext⟩ := succeeds
    exact ⟨value, after, first, between, done, doneNext⟩

@[simp] theorem succeeds_pure (value : alpha) :
    (pure value : Job alpha).Succeeds session :=
  ⟨value, session, yields_pure.2 ⟨rfl, rfl⟩⟩

theorem succeeds_bind_pure {job : Job alpha} {result : alpha → beta} :
    (job >>= fun value => pure (result value)).Succeeds session ↔
      job.Succeeds session := by
  simp only [succeeds_bind, succeeds_pure, and_true]
  rfl

theorem succeeds_mapM_cons
    {job : alpha → Job beta} {first : alpha} {rest : List alpha} :
    ((first :: rest).mapM job).Succeeds session ↔
      ∃ value between, (job first).Yields session value between ∧
        (rest.mapM job).Succeeds between := by
  simp only [List.mapM_cons, succeeds_bind, succeeds_pure, and_true]
  rfl

theorem succeeds_forM_cons
    {job : alpha → Job PUnit} {first : alpha} {rest : List alpha} :
    ((first :: rest).forM job).Succeeds session ↔
      ∃ between, (job first).Yields session () between ∧
        (rest.forM job).Succeeds between := by
  change (job first >>= fun _ => rest.forM job).Succeeds session ↔ _
  rw [succeeds_bind]
  exact ⟨fun ⟨(), done⟩ => done, fun done => ⟨(), done⟩⟩

@[simp] theorem yields_files {tree : FileTree} :
    files.Yields session tree after ↔ tree = session.files ∧ after = session := by
  change ((Except.ok session.files, session) : Except Error FileTree × Session) =
    (.ok tree, after) ↔ _
  simp [eq_comm]

@[simp] theorem yields_setFiles {tree : FileTree} {value : Unit} :
    (setFiles tree).Yields session value after ↔
      after = { session with files := tree } := by
  change ((Except.ok (), { session with files := tree }) :
    Except Error Unit × Session) = (.ok (), after) ↔ _
  simp [eq_comm]

@[simp] theorem yields_report {event : Progress} {value : Unit} :
    (report event).Yields session value after ↔
      after = { session with progress := session.progress ++ [event] } := by
  change ((Except.ok (), { session with
    progress := session.progress ++ [event] }) :
    Except Error Unit × Session) = (.ok (), after) ↔ _
  simp [eq_comm]

@[simp] theorem yields_atPath
    {path : Path} {result : Except FileFault alpha} {value : alpha} :
    (atPath path result).Yields session value after ↔
      result = .ok value ∧ after = session := by
  cases result with
  | ok given => simp [atPath, eq_comm]
  | error fault => simp [atPath]

@[simp] theorem yields_readBytes {path : Path} {content : ByteArray} :
    (readBytes path).Yields session content after ↔
      session.files.read path = .ok content ∧ after = session := by
  simp [readBytes, yields_bind, and_assoc, and_comm]

@[simp] theorem yields_readText {path : Path} {text : String} :
    (readText path).Yields session text after ↔
      (∃ content, session.files.read path = .ok content ∧
        Text.text? content = some text) ∧ after = session := by
  simp only [readText, yields_bind, yields_readBytes]
  constructor
  · rintro ⟨content, _, ⟨isRead, rfl⟩, decoded⟩
    split at decoded
    · obtain ⟨rfl, rfl⟩ := yields_pure.1 decoded
      exact ⟨⟨content, isRead, ‹_›⟩, rfl⟩
    · exact absurd decoded not_yields_throw
  · rintro ⟨⟨content, isRead, decoded⟩, rfl⟩
    refine ⟨content, _, ⟨isRead, rfl⟩, ?_⟩
    rw [decoded]
    exact yields_pure.2 ⟨rfl, rfl⟩

@[simp] theorem yields_readRecords
    [Record alpha] {path : Path} {records : List alpha} :
    (readRecords alpha path).Yields session records after ↔
      (∃ content text, session.files.read path = .ok content ∧
        Text.text? content = some text ∧
        records = (Records.parse text).records) ∧ after = session := by
  simp only [readRecords, yields_bind, yields_readText, yields_pure]
  constructor
  · rintro ⟨text, _, ⟨⟨content, isRead, decoded⟩, rfl⟩, rfl, rfl⟩
    exact ⟨⟨content, text, isRead, decoded, rfl⟩, rfl⟩
  · rintro ⟨⟨content, text, isRead, decoded, rfl⟩, rfl⟩
    exact ⟨text, _, ⟨⟨content, isRead, decoded⟩, rfl⟩, rfl, rfl⟩

@[simp] theorem yields_createFolders {path : Path} {value : Unit} :
    (createFolders path).Yields session value after ↔
      ∃ other, session.files.createFolders path = (.ok (), other) ∧
        after = { session with files := other } := by
  simp [createFolders, yields_bind, and_assoc, Prod.ext_iff]

@[simp] theorem yields_writeText
    {path : Path} {content : String} {value : Unit} :
    (writeText path content).Yields session value after ↔
      ∃ other, session.files.write path content.toUTF8 = .ok other ∧
        after = { session with files := other } := by
  simp [writeText, yields_bind, and_assoc]

/-- The folders that lead to a file of records are created before it is written. -/
theorem yields_writeRecords
    [Record alpha] {path : Path} {records : List alpha} {value : Unit} :
    (writeRecords path records).Yields session value after ↔
      ∃ made other, session.files.createAll path.parent?.toList = some made ∧
        made.write path (Records.render records).toUTF8 = .ok other ∧
        after = { session with files := other } := by
  rw [writeRecords]
  cases path.parent? with
  | none =>
      simp [FileTree.createAll_nil_iff]
  | some folder =>
      simp only [yields_bind, yields_createFolders, yields_writeText,
        Option.toList_some, FileTree.createAll_cons_iff, FileTree.createAll_nil_iff]
      constructor
      · rintro ⟨_, _, ⟨made, created, rfl⟩, other, written, rfl⟩
        exact ⟨made, other, ⟨made, created, rfl⟩, written, rfl⟩
      · rintro ⟨_, other, ⟨made, created, rfl⟩, written, rfl⟩
        exact ⟨(), _, ⟨_, created, rfl⟩, other, written, rfl⟩

@[simp] theorem yields_moveFile {source target : Path} {value : Unit} :
    (moveFile source target).Yields session value after ↔
      ∃ other, session.files.moveFile source target = .ok other ∧
        after = { session with files := other } := by
  simp [moveFile, yields_bind, and_assoc]

end LectureQuiz.Job
