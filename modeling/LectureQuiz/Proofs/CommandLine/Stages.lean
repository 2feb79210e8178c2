import LectureQuiz.CommandLine.Command
import LectureQuiz.Proofs.Config
import LectureQuiz.Proofs.Job.Turn
import LectureQuiz.Proofs.Stage.Orderly

/-!
# All stages at once and one by one

The stages can be run by one command or by four. The four load the configuration
anew each time, so that the two ways agree as long as its file is left alone.
-/

namespace LectureQuiz

namespace CommandLine

/-- The configuration file of an invocation: the one that was given, or the
user's. -/
def configFile (home : Path) (given : Option Path) : Path :=
  given.getD (Config.userFile home)

theorem yields_loadConfig
    {home : Path} {given : Option Path} {session : Session} {config : Config}
    (loads : (Config.load (configFile home given)).Yields session config session) :
    (Command.loadConfig home given).Yields session config session := by
  cases given with
  | some path => exact loads
  | none =>
      obtain ⟨⟨content, _, isRead, _⟩, _⟩ := Config.yields_load.1 loads
      have isThere : session.files.pathExists (Config.userFile home) = true :=
        FileTree.pathExists_of_read isRead
      refine Job.yields_bind.2 ⟨session.files, session, Job.yields_files.2 ⟨rfl, rfl⟩, ?_⟩
      rw [isThere]
      exact loads

/-- An invocation runs its command under the configuration that it loads. -/
theorem runOn_invocation
    {home : Path} {given : Option Path} {files : FileTree} {config : Config}
    (loads : (Config.load (configFile home given)).Yields ⟨files, []⟩ config ⟨files, []⟩)
    (command : Command) :
    ((Invocation.mk given command).run home).runOn files =
      (command.runWith home config).runOn files := by
  have loaded : (Command.loadConfig home given).Yields ⟨files, []⟩ config ⟨files, []⟩ :=
    yields_loadConfig loads
  rw [Job.Yields] at loaded
  rw [Job.runOn, Invocation.run, Job.run_bind, loaded]
  rfl

theorem ending_invocation
    {home : Path} {given : Option Path} {files : FileTree} {config : Config}
    (loads : (Config.load (configFile home given)).Yields ⟨files, []⟩ config ⟨files, []⟩)
    (command : Command) :
    ((Invocation.mk given command).run home).ending files =
      (command.runWith home config).ending files := by
  rw [Job.ending, runOn_invocation loads, Job.ending]

/-- The commands that run one stage each, with the locations of the
configuration. -/
def stageCommands : List Command :=
  [.ingest none none none, .segment none none, .generate none none,
    .pack [] none none]

/-- What a command does to the files when it is invoked with the configuration
file. -/
def invocationEffect (home : Path) (given : Option Path) (command : Command) : Effect :=
  ((Invocation.mk given command).run home).ending

/-- Commands that leave the configuration file alone run under the configuration
that was loaded at first. -/
theorem inTurn_invocationEffects
    {home : Path} {given : Option Path} {config : Config} {commands : List Command}
    {files : FileTree}
    (keepsFolders : ∀ command ∈ commands,
      (command.runWith home config).ending.KeepsFolders)
    (loads : (Config.load (configFile home given)).Yields ⟨files, []⟩ config ⟨files, []⟩)
    (spared : ∀ done, done <+: commands →
      (Effect.inTurn (done.map (invocationEffect home given)) files).2.node?
          (configFile home given).place =
        files.node? (configFile home given).place) :
    Effect.inTurn (commands.map (invocationEffect home given)) files =
      Effect.inTurn (commands.map fun command =>
        (command.runWith home config).ending) files := by
  induction commands generalizing files with
  | nil => rfl
  | cons command rest inductionHypothesis =>
      obtain ⟨keepsFirst, keepsRest⟩ := List.forall_mem_cons.1 keepsFolders
      have keeps := keepsFirst files
      have sameEnding : invocationEffect home given command files =
          (command.runWith home config).ending files := ending_invocation loads command
      rw [List.map_cons, List.map_cons, Effect.inTurn, Effect.inTurn, sameEnding]
      rcases ended : (command.runWith home config).ending files with
        ⟨error | done, after⟩
      · rfl
      rw [ended] at sameEnding keeps
      have step (done : List Command) :
          Effect.inTurn ((command :: done).map (invocationEffect home given)) files =
            Effect.inTurn (done.map (invocationEffect home given)) after := by
        rw [List.map_cons, Effect.inTurn, sameEnding]
      have sparedFirst := spared [command] ⟨rest, rfl⟩
      rw [step] at sparedFirst
      apply inductionHypothesis keepsRest
      · exact Config.yields_load_of_kept loads keeps sparedFirst
      · intro done isPrefix
        have sparedMore := spared (command :: done) (List.cons_prefix_cons.2 ⟨rfl, isPrefix⟩)
        rw [step] at sparedMore
        exact sparedMore.trans sparedFirst.symm

/-! ## What the stages do -/

section Stages

variable {config : Config} {rules : RuleSet}

/-- The first stage with the index that it needs. -/
def ingestIndexed (config : Config) : Job IngestReport := do
  let videos ← loadIndex config.paths.index
  ingest videos config.paths.placeholders config.paths.transcripts

/-- What the stages do to the files under a configuration, up to a packing. -/
def stageEffects (config : Config) (rules : RuleSet) (packing : Effect) : List Effect :=
  [(ingestIndexed config).ending,
    (segment config.bounds config.paths.transcripts config.paths.segments).ending,
    (generate rules config.paths.segments config.paths.draftBank).ending,
    packing]

/-- The packing of a configuration. -/
def packConfigured (config : Config) : Job Packing :=
  packBanks [config.paths.packedBank] config.paths.sets none

theorem orderly_ingestIndexed (config : Config) : (ingestIndexed config).Orderly :=
  (orderly_loadIndex _).bind fun videos => orderly_ingest videos _ _

theorem orderly_packConfigured (config : Config) : (packConfigured config).Orderly :=
  orderly_packBanks _ _ none

theorem keepsFolders_of_mem_stageEffects
    {packing : Effect} (keeps : packing.KeepsFolders) :
    ∀ effect ∈ stageEffects config rules packing, effect.KeepsFolders := by
  simp only [stageEffects, List.forall_mem_cons]
  refine ⟨?_, ?_, ?_, keeps, nofun⟩
  · exact (orderly_ingestIndexed config).keepsFolders_ending
  · exact (orderly_segment _ _ _).keepsFolders_ending
  · exact (orderly_generate _ _ _).keepsFolders_ending

theorem inTurn_stageEffects_forgives
    {lenient strict : Effect} (forgives : lenient.Forgives strict) :
    (Effect.inTurn (stageEffects config rules lenient)).Forgives
      (Effect.inTurn (stageEffects config rules strict)) := by
  rw [stageEffects, stageEffects]
  apply Effect.Forgives.cons (orderly_ingestIndexed config).ending_ne
  apply Effect.Forgives.cons (orderly_segment _ _ _).ending_ne
  apply Effect.Forgives.cons (orderly_generate _ _ _).ending_ne
  rw [Effect.inTurn_singleton, Effect.inTurn_singleton]
  exact forgives

theorem endsAs_runAllStages
    (bounds : checkBounds config.bounds = .ok ()) (isRules : config.ruleSet = .ok rules) :
    (Command.runAllStages config).EndsAs
      (.inTurn (stageEffects config rules (packConfigured config).ending)) := by
  have ingests (videos : VideoIndex) := orderly_ingest videos config.paths.placeholders
    config.paths.transcripts
  rw [stageEffects]
  apply Job.EndsAs.map
  apply Job.EndsAs.report
  apply (orderly_loadIndex config.paths.index).endsAs_bind_bind ingests
  intro videos
  apply Job.endsAs_of_passed bounds
  apply Job.endsAs_of_passed isRules
  apply Job.EndsAs.report
  apply (ingests videos).endsAs_bind
  intro documents
  apply Job.EndsAs.report
  apply (orderly_segment _ _ _).endsAs_bind
  intro streams
  apply Job.EndsAs.report
  apply (orderly_generate _ _ _).endsAs_bind
  intro drafts
  apply Job.EndsAs.report
  apply (orderly_packConfigured config).endsAs_bind
  intro packing
  apply Job.EndsAs.report
  exact Job.endsAs_pure _

theorem ending_runPack (banks : List Path) (out : Path) (module : Option UInt32)
    (files : FileTree) :
    (Command.runPack banks out module).ending files =
      (((packBanks banks out module).runOn files).1 >>= fun packing =>
        if packing.modules.isEmpty then .error (.nothingToPack module) else .ok (),
        ((packBanks banks out module).runOn files).2.files) := by
  rw [Job.ending, Job.runOn, Command.runPack, Job.run_bind, ← Job.runOn]
  rcases (packBanks banks out module).runOn files with ⟨error | packing, between⟩
  · rfl
  · dsimp only [bind, Except.bind]
    cases packing.modules.isEmpty <;> rfl

/-- What a configuration's packing does as a command of its own. -/
def packCommand (config : Config) : Job (List OutputLine) :=
  Command.runPack [config.paths.packedBank] config.paths.sets none

theorem keepsFolders_packCommand (config : Config) :
    (packCommand config).ending.KeepsFolders := by
  intro files
  rw [packCommand, ending_runPack]
  exact (orderly_packConfigured config).keepsFolders files

/-- The command that packs leaves what the packing leaves, but it fails when nothing
was packed. -/
theorem ending_packConfigured_forgives (config : Config) :
    (packConfigured config).ending.Forgives (packCommand config).ending := by
  intro files
  have isOther := (orderly_packConfigured config).error_ne files none
  rw [packCommand, ending_runPack, Job.ending, packConfigured]
  rw [packConfigured] at isOther
  refine ⟨rfl, ?_⟩
  intro error
  cases outcome : ((packBanks [config.paths.packedBank] config.paths.sets
    none).runOn files).1 with
  | error failure =>
      rw [outcome] at isOther
      change Except.error failure = .error error ↔ Except.error failure = .error error ∧ _
      refine (and_iff_left_of_imp ?_).symm
      intro failed isEmpty
      exact isOther (congrArg Except.error ((Except.error.inj failed).trans isEmpty))
  | ok packing =>
      constructor
      · intro failed
        cases failed
      · intro fails
        obtain ⟨failed, isFailure⟩ := fails
        dsimp only [bind, Except.bind] at failed
        split at failed
        · exact absurd (Except.error.inj failed).symm isFailure
        · cases failed

theorem endings_stageCommands
    (home : Path) (bounds : checkBounds config.bounds = .ok ())
    (isRules : config.ruleSet = .ok rules) :
    (stageCommands.map fun command => (command.runWith home config).ending) =
      stageEffects config rules (packCommand config).ending := by
  have ingests : ((Command.ingest none none none).runWith home config).EndsAs
      (ingestIndexed config).ending := by
    change (Command.runIngest _ _ _).EndsAs _
    rw [Command.runIngest, ← bind_assoc]
    exact (orderly_ingestIndexed config).endsAs.map _
  have segments : ((Command.segment none none).runWith home config).EndsAs
      (segment config.bounds config.paths.transcripts config.paths.segments).ending :=
    Job.endsAs_of_passed bounds ((orderly_segment _ _ _).endsAs.map _)
  have generates : ((Command.generate none none).runWith home config).EndsAs
      (generate rules config.paths.segments config.paths.draftBank).ending :=
    Job.endsAs_of_passed isRules ((orderly_generate _ _ _).endsAs.map _)
  simp only [stageCommands, List.map_cons, List.map_nil, ingests.ending_eq,
    segments.ending_eq, generates.ending_eq]
  rfl

end Stages

/-- Running all stages leaves what the four commands leave that run one stage each,
and fails where they fail, but not for an empty pack, as long as none of them touches
the configuration file. -/
theorem run_of_stageCommands
    {home : Path} {given : Option Path} {files : FileTree} {config : Config}
    {session : Session}
    (accepted : (Config.load (configFile home given)).runOn files =
      (.ok config, session))
    (spared : ∀ done, done <+: stageCommands →
      (Effect.inTurn (done.map (invocationEffect home given)) files).2.node?
          (configFile home given).place =
        files.node? (configFile home given).place) :
    let whole := invocationEffect home given .run files
    let inTurn := Effect.inTurn (stageCommands.map (invocationEffect home given)) files
    whole.2 = inTurn.2 ∧
      ∀ error, whole.1 = .error error ↔
        inTurn.1 = .error error ∧ error ≠ .nothingToPack none := by
  intro whole inTurn
  have yields := Job.yields_iff_runOn.2 accepted
  obtain ⟨⟨_, _, _, _, _, checked⟩, rfl⟩ := Config.yields_load.1 yields
  obtain ⟨bounds, _⟩ := Config.check_eq_ok_iff.1 checked
  obtain ⟨rules, isRules⟩ := Config.exists_ruleSet_of_check checked
  have endings := endings_stageCommands home bounds isRules
  have keepsFolders : ∀ effect ∈ stageEffects config rules (packCommand config).ending,
      effect.KeepsFolders :=
    keepsFolders_of_mem_stageEffects (keepsFolders_packCommand config)
  rw [← endings] at keepsFolders
  have sameInTurn : inTurn = Effect.inTurn
      (stageEffects config rules (packCommand config).ending) files := by
    rw [← endings]
    exact inTurn_invocationEffects (List.forall_mem_map.1 keepsFolders) yields spared
  have sameWhole : whole = Effect.inTurn
      (stageEffects config rules (packConfigured config).ending) files := by
    have ends := endsAs_runAllStages bounds isRules
    exact (ending_invocation yields .run).trans (congrFun ends.ending_eq files)
  rw [sameInTurn, sameWhole]
  exact inTurn_stageEffects_forgives (ending_packConfigured_forgives config) files

/-- A configuration file that names a bank that was edited by hand, the bank with one item,
an empty index and a raw transcript. -/
def packedCourse : FileTree where
  nodes :=
    [(["qbank.toml"], .file "[paths]\nfinal_bank = \"b\"\n".toUTF8),
      (["b"], .file ("\x7b\"id\":\"a\",\"module\":1,\"type\":\"tf\"," ++
        "\"question\":\"Q\",\"choices\":[\"True\",\"False\"]," ++
        "\"answer_index\":0\x7d\n").toUTF8),
      (["data"], .folder), (["data", "index.csv"], .file "".toUTF8),
      (["data", "placeholders"], .folder),
      (["data", "placeholders", "a.txt"], .file "A fact.\n".toUTF8)]
  distinct := by simp

/-- All four stages leave their files, and so does the one command. -/
theorem run_of_packedCourse :
    let given : Option Path := some ⟨"qbank.toml"⟩
    let whole := invocationEffect ⟨"home"⟩ given .run packedCourse
    let inTurn := Effect.inTurn (stageCommands.map (invocationEffect ⟨"home"⟩ given))
      packedCourse
    ((Config.load (configFile ⟨"home"⟩ given)).runOn packedCourse).1.isOk = true ∧
      inTurn.1 = .ok () ∧ whole.1 = .ok () ∧ whole.2 = inTurn.2 ∧
      ∀ path ∈ ["data/transcripts/a.md", "data/segments/a.jsonl",
          "data/draft/qbank_draft.jsonl", "data/qbank/practice_m1.jsonl"],
        (whole.2.read ⟨path⟩).isOk = true := by
  intro given whole inTurn
  let file := configFile ⟨"home"⟩ given
  let config := "[paths]\nfinal_bank = \"b\"\n".toUTF8
  let reached (count : Nat) :=
    Effect.inTurn ((stageCommands.take count).map (invocationEffect ⟨"home"⟩ given))
      packedCourse
  obtain ⟨loadsOk, stays, inTurnOk, written⟩ :
      ((Config.load file).runOn packedCourse).1.isOk = true ∧
        (∀ count < 5, ((reached count).2.read file).toOption = some config) ∧
        inTurn.1.isOk = true ∧
        ∀ path ∈ ["data/transcripts/a.md", "data/segments/a.jsonl",
          "data/draft/qbank_draft.jsonl", "data/qbank/practice_m1.jsonl"],
          (inTurn.2.read ⟨path⟩).isOk = true := by
    decide +kernel
  obtain ⟨_, accepted⟩ := Job.exists_of_isOk loadsOk
  have contentOf (count : Nat) (small : count < 5) :
      (reached count).2.node? file.place = some (.file config) :=
    FileTree.node?_of_toOption_read (stays count small)
  have spared (done : List Command) (isPrefix : done <+: stageCommands) :
      (Effect.inTurn (done.map (invocationEffect ⟨"home"⟩ given)) packedCourse).2.node?
        file.place = packedCourse.node? file.place := by
    have short : done.length < 5 := Nat.lt_succ_of_le isPrefix.length_le
    rw [List.prefix_iff_eq_take.1 isPrefix]
    exact (contentOf _ short).trans (contentOf 0 (by decide)).symm
  obtain ⟨sameFiles, errors⟩ := run_of_stageCommands accepted spared
  have inTurnEnds : inTurn.1 = .ok () := by
    cases ended : inTurn.1 with
    | ok done => rfl
    | error error =>
        rw [ended] at inTurnOk
        exact absurd inTurnOk nofun
  have wholeEnds : whole.1 = .ok () := by
    cases ended : whole.1 with
    | ok done => rfl
    | error error =>
        have failed := ((errors error).1 ended).1
        exact absurd (inTurnEnds.symm.trans failed) nofun
  refine ⟨loadsOk, inTurnEnds, wholeEnds, sameFiles, ?_⟩
  rw [show whole.2 = inTurn.2 from sameFiles]
  exact written

/-- When there is nothing to pack, only the command that packs complains. -/
example :
    let course := (((FileTree.empty.put ["qbank.toml"] (.file .empty)).put ["data"]
      .folder).put ["data", "index.csv"] (.file .empty)).put ["data", "placeholders"] .folder
    let effect := invocationEffect ⟨"home"⟩ (some ⟨"qbank.toml"⟩)
    (effect .run course).1.isOk = true ∧
      (Effect.inTurn (stageCommands.map effect) course).1.isOk = false := by
  decide +kernel

end CommandLine

end LectureQuiz
