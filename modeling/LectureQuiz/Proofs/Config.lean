import LectureQuiz.Config.File
import LectureQuiz.Proofs.FileTree.Kept
import LectureQuiz.Proofs.Job
import LectureQuiz.Proofs.Rule

namespace LectureQuiz

open LectureQuiz.Text

theorem forM_eq_ok_iff
    {epsilon alpha : Type} {check : alpha → Except epsilon PUnit} {items : List alpha} :
    items.forM check = .ok () ↔ ∀ item ∈ items, check item = .ok () := by
  induction items with
  | nil => exact iff_of_true rfl nofun
  | cons item rest inductionHypothesis =>
      rw [List.forall_mem_cons, ← inductionHypothesis]
      change (check item >>= fun _ => rest.forM check) = .ok () ↔ _
      rw [bind_eq_ok]
      exact ⟨fun ⟨(), checked, checkedRest⟩ => ⟨checked, checkedRest⟩,
        fun ⟨checked, checkedRest⟩ => ⟨(), checked, checkedRest⟩⟩

theorem mapError_eq_ok_iff
    {epsilon delta alpha : Type} {convert : epsilon → delta}
    {result : Except epsilon alpha} {value : alpha} :
    result.mapError convert = .ok value ↔ result = .ok value := by
  cases result with
  | ok given =>
      change (Except.ok given : Except delta alpha) = .ok value ↔ _
      rw [Except.ok.injEq, Except.ok.injEq]
  | error error =>
      change (Except.error (convert error) : Except delta alpha) = .ok value ↔ _
      simp

namespace Config

theorem check_eq_ok_iff {config : Config} :
    config.check = .ok () ↔
      checkBounds config.bounds = .ok () ∧
        ∀ rule ∈ config.rules, rule.validate = .ok () := by
  rw [check, bind_eq_ok]
  simp only [forM_eq_ok_iff, mapError_eq_ok_iff]
  exact ⟨fun ⟨(), passed⟩ => passed, fun passed => ⟨(), passed⟩⟩

theorem exists_ruleSet_of_check
    {config : Config} (accepted : config.check = .ok ()) :
    ∃ rules, config.ruleSet = .ok rules := by
  obtain ⟨_, usable⟩ := check_eq_ok_iff.1 accepted
  have noFault := RuleSet.fault_extend_of_forall .course usable
  refine ⟨(RuleSet.course.extend config.rules).1, ?_⟩
  rw [ruleSet]
  split
  · rename_i extended
    rw [extended]
  · rename_i extended
    rw [extended] at noFault
    exact absurd noFault nofun

theorem yields_load
    {path : Path} {session after : Session} {config : Config} :
    (load path).Yields session config after ↔
      (∃ content text, session.files.read path = .ok content ∧
        text? content = some text ∧ parse? text = some config ∧
        config.check = .ok ()) ∧ after = session := by
  rw [load, Job.yields_bind]
  constructor
  · intro loads
    simp only [Job.yields_readText] at loads
    obtain ⟨text, _, ⟨⟨content, isRead, isText⟩, rfl⟩, loads⟩ := loads
    split at loads
    · exact absurd loads Job.not_yields_throw
    · rename_i parsed
      simp only [Job.yields_bind, Job.yields_liftM, Job.yields_pure] at loads
      obtain ⟨_, _, ⟨accepted, rfl⟩, rfl, rfl⟩ := loads
      exact ⟨⟨content, text, isRead, isText, parsed, accepted⟩, rfl⟩
  · intro loads
    obtain ⟨⟨content, text, isRead, isText, parsed, accepted⟩, rfl⟩ := loads
    have reads := Job.yields_readText.2 ⟨⟨content, isRead, isText⟩, rfl⟩
    refine ⟨text, after, reads, ?_⟩
    rw [parsed]
    refine Job.yields_bind.2 ⟨(), after, ?_, Job.yields_pure.2 ⟨rfl, rfl⟩⟩
    exact Job.yields_liftM.2 ⟨accepted, rfl⟩

/-- The same configuration is loaded as long as its file is left alone. -/
theorem yields_load_of_kept
    {path : Path} {session after other : Session} {config : Config}
    (loads : (load path).Yields session config after)
    (keeps : session.files.KeepsFolders other.files)
    (same : other.files.node? path.place = session.files.node? path.place) :
    (load path).Yields other config other := by
  obtain ⟨⟨content, text, isRead, isText, parsed, accepted⟩, _⟩ := yields_load.1 loads
  have isReadThere := FileTree.read_of_kept isRead keeps same
  exact yields_load.2 ⟨⟨content, text, isReadThere, isText, parsed, accepted⟩, rfl⟩

end Config

end LectureQuiz
