import LectureQuiz.Proofs.Records
import LectureQuiz.Proofs.Stage.Generate
import LectureQuiz.Proofs.Stage.Orderly

/-!
# Stages that read everything first

Drafting items, packing banks and the setup of a whole run read all their inputs before
they write anything. So a run that stops at an input leaves the files as they are. And a
bank that lies among the files of segments does no harm: its items are no segments, and a
run that finds the bank of an earlier run drafts the same items again.
-/

namespace LectureQuiz

open LectureQuiz.Text

variable {tree : FileTree} {session after : Session} {segments bank folder : Path}
  {rules : RuleSet}

theorem Segment.ofJson?_item (item : Item) : Segment.ofJson? item.toJson = none := by
  rfl

/-- Records of one type may be read as records of another one. -/
theorem Records.records_parse_render
    {alpha beta : Type} [Record alpha] [LawfulRecord alpha] [Record beta]
    (records : List alpha) :
    (parse (render records) : Records beta).records =
      records.filterMap fun record => Record.ofJson? (Record.toJson record) := by
  rw [parse, contentLines_render, List.map_map, List.filterMap_map]
  apply List.filterMap_congr
  intro record _
  rw [Function.comp_apply, Function.comp_apply, id, decodeLine?,
    Json.parse?_compactChars (LawfulRecord.plain record)]
  rfl

theorem storedSegments_bankBytes (rules : RuleSet) (drawn : List Segment) :
    storedSegments (bankBytes rules drawn) = [] := by
  rw [bankBytes, storedSegments_of_text (text?_toUTF8 _), Records.records_parse_render]
  exact List.filterMap_eq_nil_iff.2 fun item _ => Segment.ofJson?_item item

/-- Drafting stops before it writes when the segments cannot be read. -/
theorem fails_generate (rules : RuleSet) (bank : Path)
    (cannot : ¬session.files.HasSegments segments) :
    ∃ error after, (generate rules segments bank).Fails session error after ∧
      after.files = session.files := by
  rw [generate_eq]
  exact (onlyReads_readSegments segments).fails_bind fun yields =>
    cannot (yields_readSegments yields).1

/-- Packing stops before it writes when one of the banks cannot be read. -/
theorem fails_packBanks
    {banks : List Path} (folder : Path) (module : Option UInt32)
    (cannot : ∃ bank ∈ banks, ¬session.files.HasText bank) :
    ∃ error after, (packBanks banks folder module).Fails session error after ∧
      after.files = session.files := by
  have isChange := FileTree.isChange_eq
  have reads : ∀ bank, (Job.readRecords Item bank).OnlyReads := Job.relates_readRecords isChange
  obtain ⟨bank, member, noText⟩ := cannot
  rw [packBanks, readBanks, bind_assoc]
  apply Job.OnlyReads.fails_bind (Job.relates_mapM isChange fun bank _ => reads bank)
  intro _ _ yields
  obtain ⟨_, _, _, yieldsBank, same⟩ := Job.OnlyReads.yields_of_mem reads yields member
  exact noText (same ▸ hasText_of_yields yieldsBank)

theorem onlyReads_loadIndex (path : Path) : (loadIndex path).OnlyReads := by
  have isChange := FileTree.isChange_eq
  apply (Job.relates_files isChange).bind isChange
  intro files
  split
  · exact Job.relates_throw isChange _
  · exact Job.relates_throw isChange _
  · split
    · exact Job.relates_pure isChange _
    · exact Job.relates_throw isChange _

theorem Job.Orderly.progress_grows
    {alpha : Type} {job : Job alpha} (orderly : job.Orderly) {error : Error}
    (fails : job.Fails session error after) : session.progress <+: after.progress := by
  have run := orderly.run_eq session.files session.progress
  rw [Job.Fails] at fails
  rw [fails, Prod.mk.injEq] at run
  rw [run.2]
  exact List.prefix_append _ _

/-- What a whole run does once its index, bounds and rules are found to be good. -/
def runStages (config : Config) (index : VideoIndex) (rules : RuleSet) : Job RunReport := do
  let paths := config.paths
  let ingested ← ingest index paths.placeholders paths.transcripts
  Job.report (.phase "Segmenting transcripts")
  let segmented ← segment config.bounds paths.transcripts paths.segments
  Job.report (.phase "Generating draft items")
  let generated ← generate rules paths.segments paths.draftBank
  Job.report (.phase "Packing quiz sets")
  let packing ← packBanks [paths.packedBank] paths.sets none
  Job.report .done
  return ⟨ingested, segmented, generated, packing⟩

theorem orderly_runStages (config : Config) (index : VideoIndex) (rules : RuleSet) :
    (runStages config index rules).Orderly :=
  (orderly_ingest index _ _).bind fun _ => (Job.Orderly.report _).bind fun _ =>
    (orderly_segment config.bounds _ _).bind fun _ => (Job.Orderly.report _).bind fun _ =>
      (orderly_generate rules _ _).bind fun _ => (Job.Orderly.report _).bind fun _ =>
        (orderly_packBanks _ _ none).bind fun _ => (Job.Orderly.report _).bind fun _ =>
          .pure _

/-- Reads the index of a whole run, and checks its bounds and rules. -/
def setup (config : Config) : Job (VideoIndex × RuleSet) := do
  Job.report (.phase "Loading index")
  let index ← loadIndex config.paths.index
  checkBounds config.bounds
  let rules ← config.ruleSet
  return (index, rules)

theorem runAll_eq (config : Config) :
    runAll config = (do
      let (index, rules) ← setup config
      Job.report (.phase "Normalizing placeholders")
      runStages config index rules) := by
  simp only [runAll, setup, runStages, bind_assoc, pure_bind]

theorem onlyReads_setup (config : Config) : (setup config).OnlyReads := by
  have isChange := FileTree.isChange_eq
  exact (Job.relates_report isChange _).bind isChange fun _ =>
    (onlyReads_loadIndex _).bind isChange fun _ =>
      (Job.relates_liftM isChange _).bind isChange fun _ =>
        (Job.relates_liftM isChange _).bind isChange fun _ => Job.relates_pure isChange _

/-- A whole run that fails has written nothing unless it came to the transcripts. -/
theorem eq_of_fails_runAll
    {config : Config} {error : Error} (fails : (runAll config).Fails session error after)
    (early : .phase "Normalizing placeholders" ∉ after.progress) :
    after.files = session.files := by
  rw [runAll_eq] at fails
  rcases Job.fails_bind.1 fails with stops | ⟨⟨index, rules⟩, between, _, failsLater⟩
  · exact (Job.relates_iff_ends.1 (onlyReads_setup config)).fails stops
  rcases Job.fails_bind.1 failsLater with reports | ⟨_, entered, reports, stops⟩
  · exact absurd reports Job.not_fails_report
  · have grows := (orderly_runStages config index rules).progress_grows stops
    refine absurd (grows.subset ?_) early
    rw [Job.yields_report.1 reports]
    exact List.mem_append_right _ List.mem_cons_self

/-! ## Drafting once more -/

namespace FileTree

/-- The files of a folder that store segments. -/
def filledFiles (tree : FileTree) (segments : Path) : List (String × ByteArray) :=
  (tree.filesIn segments "jsonl").filter fun file => storedSegments file.2 ≠ []

theorem mem_filledFiles {name : String} {content : ByteArray} :
    (name, content) ∈ tree.filledFiles segments ↔
      (name, content) ∈ tree.filesIn segments "jsonl" ∧ storedSegments content ≠ [] := by
  rw [filledFiles, List.mem_filter, decide_eq_true_iff]

theorem increasing_filledFiles (tree : FileTree) (segments : Path) :
    (tree.filledFiles segments).Pairwise fun first second => first.1 < second.1 :=
  (increasing_filesIn tree segments "jsonl").sublist List.filter_sublist

theorem segmentsAt_eq_filledFiles (tree : FileTree) (segments : Path) :
    tree.segmentsAt segments =
      ((tree.filledFiles segments).map fun file => storedSegments file.2).flatten := by
  rw [segmentsAt, segmentLists, ← List.flatten_filter_ne_nil, List.filter_map]
  rfl

namespace HasBank

variable {final : FileTree}

/-- The bank may be one of the files of segments now. The other ones are the same. -/
theorem mem_filesIn
    (hasBank : tree.HasBank final rules segments bank) (wellNamed : tree.WellNamed)
    (isFolder : tree.isFolder segments = true) {name : String} {content : ByteArray}
    (different : segments.place ++ [name] ≠ bank.place) :
    (name, content) ∈ final.filesIn segments "jsonl" ↔
      (name, content) ∈ tree.filesIn segments "jsonl" :=
  mem_filesIn_congr wellNamed hasBank.keeps isFolder isExtension_jsonl.notEmpty
    (hasBank.elsewhere _ different)

theorem wellNamed
    (hasBank : tree.HasBank final rules segments bank) (wellNamed : tree.WellNamed) :
    final.WellNamed := by
  obtain ⟨_, inner, bankName, isName, isPlace⟩ := eq_place_of_target hasBank.isTarget
  apply wellNamed.of_sameFile
  intro place name
  by_cases isBankPlace : place ++ [name] = bank.place
  · rw [isPlace] at isBankPlace
    have sameName := List.singleton_inj.1 (List.append_inj' isBankPlace rfl).2
    exact Or.inl (sameName ▸ isName)
  · exact Or.inr (hasBank.elsewhere _ isBankPlace)

/-- Of the files of segments, only the bank may be another one than before. -/
theorem eq_or_mem_filesIn
    (hasBank : tree.HasBank final rules segments bank) (wellNamed : tree.WellNamed)
    (isFolder : tree.isFolder segments = true) {name : String} {content : ByteArray}
    (member : (name, content) ∈ final.filesIn segments "jsonl") :
    content = bankBytes rules (tree.segmentsAt segments) ∨
      (name, content) ∈ tree.filesIn segments "jsonl" := by
  by_cases isBankPlace : segments.place ++ [name] = bank.place
  · obtain ⟨_, _, isFile⟩ := of_mem_filesIn (hasBank.wellNamed wellNamed)
      isExtension_jsonl.notEmpty member
    rw [isBankPlace, hasBank.isBank, Option.some.injEq, Node.file.injEq] at isFile
    exact Or.inl isFile.symm
  · exact Or.inr ((hasBank.mem_filesIn wellNamed isFolder isBankPlace).1 member)

theorem hasSegments
    (hasBank : tree.HasBank final rules segments bank) (wellNamed : tree.WellNamed)
    (has : tree.HasSegments segments) : final.HasSegments segments where
  isFolder := isFolder_of_keepsFolders hasBank.keeps has.isFolder
  areTexts := by
    rintro ⟨name, content⟩ member
    rcases hasBank.eq_or_mem_filesIn wellNamed has.isFolder member with
      isBank | wasThere
    · rw [isBank, bankBytes, text?_toUTF8]
      rfl
    · exact has.areTexts _ wasThere

/-- The bank adds no file that stores segments to those that there were, wherever it
lies. -/
theorem filledFiles_eq
    (hasBank : tree.HasBank final rules segments bank) (wellNamed : tree.WellNamed)
    (isFolder : tree.isFolder segments = true)
    (noSegments : ∀ content, tree.node? bank.place = some (.file content) →
      storedSegments content = []) :
    final.filledFiles segments = tree.filledFiles segments := by
  apply eq_of_increasing_names (increasing_filledFiles final segments)
    (increasing_filledFiles tree segments)
  rintro ⟨name, content⟩
  rw [mem_filledFiles, mem_filledFiles]
  apply and_congr_left
  intro filled
  constructor
  · intro member
    rcases hasBank.eq_or_mem_filesIn wellNamed isFolder member with isBank | wasThere
    · exact absurd (isBank ▸ storedSegments_bankBytes _ _) filled
    · exact wasThere
  · intro member
    refine (hasBank.mem_filesIn wellNamed isFolder fun isBankPlace => filled ?_).2 member
    obtain ⟨_, _, isFile⟩ := of_mem_filesIn wellNamed isExtension_jsonl.notEmpty member
    exact noSegments content (isBankPlace ▸ isFile)

end HasBank

end FileTree

/-- Drafting finds its own bank and drafts it again. -/
theorem yields_generate_again
    {report : GenerateReport} (wellNamed : session.files.WellNamed)
    (noSegments : ∀ content, session.files.node? bank.place = some (.file content) →
      storedSegments content = [])
    (yields : (generate rules segments bank).Yields session report after) :
    ∃ again, (generate rules segments bank).Yields ⟨after.files, []⟩ report again ∧
      again.files.Like after.files := by
  obtain ⟨has, rfl, hasBank⟩ := hasBank_of_yields yields
  have same : after.files.segmentsAt segments = session.files.segmentsAt segments := by
    rw [FileTree.segmentsAt_eq_filledFiles, FileTree.segmentsAt_eq_filledFiles,
      hasBank.filledFiles_eq wellNamed has.isFolder noSegments]
  exact hasBank.repeats (.refl _) (hasBank.hasSegments wellNamed has) same (.refl _ _)
    ⟨after.files, []⟩ (.refl _)

/-- Drafting and packing that cannot read an input, and a whole run that fails before it
comes to the transcripts, leave all files as they are. Drafting that has succeeded does so
again with the same report and the same bank, which is the one of the segments that there
were, if the file in whose place the bank came held no segments. -/
theorem stages_read_first (tree : FileTree) :
    (∀ rules segments bank, ¬tree.HasSegments segments →
        ∃ error after, (generate rules segments bank).runOn tree = (.error error, after) ∧
          after.files = tree) ∧
      (∀ banks folder module, (∃ bank ∈ banks, ¬tree.HasText bank) →
        ∃ error after, (packBanks banks folder module).runOn tree = (.error error, after) ∧
          after.files = tree) ∧
      (∀ config error after, (runAll config).runOn tree = (.error error, after) →
        .phase "Normalizing placeholders" ∉ after.progress → after.files = tree) ∧
      ∀ rules segments bank report after, tree.WellNamed →
        (∀ content, tree.node? bank.place = some (.file content) →
          storedSegments content = []) →
        (generate rules segments bank).runOn tree = (.ok report, after) →
        ∃ again, (generate rules segments bank).runOn after.files = (.ok report, again) ∧
          (∀ place, again.files.node? place = after.files.node? place) ∧
          again.files.node? bank.place =
            some (.file (bankBytes rules (tree.segmentsAt segments))) := by
  refine ⟨?_, ?_, ?_, ?_⟩
  · intro rules segments bank cannot
    obtain ⟨error, after, fails, same⟩ :=
      @fails_generate ⟨tree, []⟩ segments rules bank cannot
    exact ⟨error, after, Job.fails_iff_runOn.1 fails, same⟩
  · intro banks folder module cannot
    obtain ⟨error, after, fails, same⟩ :=
      @fails_packBanks ⟨tree, []⟩ banks folder module cannot
    exact ⟨error, after, Job.fails_iff_runOn.1 fails, same⟩
  · intro config error after run early
    exact eq_of_fails_runAll (Job.fails_iff_runOn.2 run) early
  · intro rules segments bank report after wellNamed noSegments run
    have yields := Job.yields_iff_runOn.2 run
    obtain ⟨_, _, hasBank⟩ := hasBank_of_yields yields
    obtain ⟨again, yieldsAgain, like⟩ := yields_generate_again wellNamed noSegments yields
    exact ⟨again, Job.yields_iff_runOn.1 yieldsAgain, like,
      (like bank.place).trans hasBank.isBank⟩

/-- A file that is no text, and a folder with one segment. There is no index. -/
def unreadableCourse : FileTree where
  nodes := [(["s"], .folder), (["s", "bad.jsonl"], .file ⟨#[255]⟩), (["g"], .folder),
    (["g", "a.jsonl"], .file (Records.render
      [(⟨"a", 6, none, none, "Show the base case."⟩ : Segment)]).toUTF8)]
  distinct := by simp

/-- Nothing is drafted from the file, packed from a bank that is not there, or done without
an index. The bank that is drafted into the folder of its segments is drafted again. -/
theorem stages_read_first_of_unreadableCourse :
    (∃ error after, (generate .course ⟨"s"⟩ ⟨"o/bank.jsonl"⟩).runOn unreadableCourse =
        (.error error, after) ∧ after.files = unreadableCourse) ∧
      (∃ error after, (packBanks [⟨"g/a.jsonl"⟩, ⟨"b.jsonl"⟩] ⟨"o"⟩ none).runOn
        unreadableCourse = (.error error, after) ∧ after.files = unreadableCourse) ∧
      (∃ error after, (runAll {}).runOn unreadableCourse = (.error error, after) ∧
        after.files = unreadableCourse) ∧
      ∃ report after, (generate .course ⟨"g"⟩ ⟨"g/bank.jsonl"⟩).runOn unreadableCourse =
          (.ok report, after) ∧
        report.segments = 1 ∧ report.items = 1 ∧
        ∃ again, (generate .course ⟨"g"⟩ ⟨"g/bank.jsonl"⟩).runOn after.files =
            (.ok report, again) ∧
          (∀ place, again.files.node? place = after.files.node? place) ∧
          again.files.node? (Path.mk "g/bank.jsonl").place =
            some (.file (bankBytes .course (unreadableCourse.segmentsAt ⟨"g"⟩))) := by
  have cannotRead : ¬unreadableCourse.HasSegments ⟨"s"⟩ := by
    intro has
    have isText := has.areTexts ("bad.jsonl", ⟨#[255]⟩)
      (FileTree.mem_filesIn.2 ⟨by decide +kernel, by decide +kernel⟩)
    exact absurd isText (by decide +kernel)
  have noBank : ¬unreadableCourse.HasText ⟨"b.jsonl"⟩ := by
    rintro ⟨content, isRead, _⟩
    have isAbsent : unreadableCourse.read ⟨"b.jsonl"⟩ = .error .absent := by
      decide +kernel
    exact absurd (isAbsent.symm.trans isRead) nofun
  have wellNamed : unreadableCourse.WellNamed := by
    apply FileTree.wellNamed_of_nodes
    decide
  have newBank : unreadableCourse.node? (Path.mk "g/bank.jsonl").place = none := by
    decide +kernel
  have ⟨failed, early, counts⟩ :
      ((runAll {}).runOn unreadableCourse).1.isOk = false ∧
        .phase "Normalizing placeholders" ∉ ((runAll {}).runOn unreadableCourse).2.progress ∧
        ((generate .course ⟨"g"⟩ ⟨"g/bank.jsonl"⟩).runOn unreadableCourse).1.toOption.map
          (fun report => (report.segments, report.items)) = some (1, 1) := by
    decide +kernel
  obtain ⟨error, failedRun⟩ := Job.exists_of_not_isOk failed
  obtain ⟨report, isReport, areCounts⟩ := Option.map_eq_some_iff.1 counts
  obtain ⟨ofSegments, ofBanks, ofCourse, isAgain⟩ := stages_read_first unreadableCourse
  have run := Job.runOn_of_toOption isReport
  rw [Prod.mk.injEq] at areCounts
  refine ⟨ofSegments _ _ _ cannotRead, ofBanks _ _ _ ⟨_, by simp, noBank⟩,
    ⟨error, _, failedRun, ofCourse _ _ _ failedRun early⟩,
    report, _, run, areCounts.1, areCounts.2, ?_⟩
  refine isAgain _ _ _ _ _ wellNamed ?_ run
  intro content isFile
  exact absurd (newBank.symm.trans isFile) nofun

end LectureQuiz
