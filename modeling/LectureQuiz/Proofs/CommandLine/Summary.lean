import LectureQuiz.Proofs.CommandLine.Stages
import LectureQuiz.Proofs.QuizSet.Banks
import LectureQuiz.Proofs.QuizSet.Counting
import LectureQuiz.Proofs.QuizSet.Repeat
import LectureQuiz.Proofs.Stage.Repeat

/-!
# The summary of a packing

Two commands pack banks, and tell what they packed in one line: the modules, and a number
of files. The number is the one of all sets that the manifest lists, so that it also counts
sets that earlier packings left in the folder.
-/

namespace LectureQuiz

variable {tree : FileTree} {session after : Session} {config : Config}

/-- What a whole run does before it packs. -/
def beforePacking (config : Config) :
    Job (IngestReport × SegmentReport × GenerateReport) := do
  let (index, rules) ← setup config
  let paths := config.paths
  Job.report (.phase "Normalizing placeholders")
  let ingested ← ingest index paths.placeholders paths.transcripts
  Job.report (.phase "Segmenting transcripts")
  let segmented ← segment config.bounds paths.transcripts paths.segments
  Job.report (.phase "Generating draft items")
  let generated ← generate rules paths.segments paths.draftBank
  Job.report (.phase "Packing quiz sets")
  return (ingested, segmented, generated)

theorem runAll_eq_beforePacking (config : Config) :
    runAll config = (do
      let (ingested, segmented, generated) ← beforePacking config
      let packing ← packBanks [config.paths.packedBank] config.paths.sets none
      Job.report .done
      return ⟨ingested, segmented, generated, packing⟩) := by
  simp only [runAll, setup, beforePacking, bind_assoc, pure_bind]

theorem Job.Orderly.relates_keepsFolders
    {alpha : Type} {job : Job alpha} (orderly : job.Orderly) :
    job.Relates FileTree.KeepsFolders := by
  intro session
  rw [orderly.run_eq session.files session.progress]
  exact orderly.keepsFolders session.files

/-- What was reported before does not matter to an orderly job. -/
theorem Job.Orderly.runOn_of_yields
    {alpha : Type} {job : Job alpha} {value : alpha} (orderly : job.Orderly)
    (yields : job.Yields session value after) :
    ∃ other, job.runOn session.files = (.ok value, other) ∧ other.files = after.files := by
  have run := orderly.run_eq session.files session.progress
  rw [Job.Yields] at yields
  rw [yields, Prod.mk.injEq] at run
  exact ⟨_, Prod.ext run.1.symm rfl, (congrArg Session.files run.2).symm⟩

theorem relates_keepsFolders_beforePacking (config : Config) :
    (beforePacking config).Relates FileTree.KeepsFolders := by
  have isChange : FileTree.IsChange FileTree.KeepsFolders := ⟨.refl, .trans⟩
  have reports (event : Progress) : (Job.report event).Relates FileTree.KeepsFolders :=
    (Job.Orderly.report event).relates_keepsFolders
  have setsUp : (setup config).Relates FileTree.KeepsFolders := by
    intro session
    rw [onlyReads_setup config session]
    exact .refl _
  rw [beforePacking]
  exact setsUp.bind isChange fun _ => (reports _).bind isChange fun _ =>
    (orderly_ingest _ _ _).relates_keepsFolders.bind isChange fun _ =>
      (reports _).bind isChange fun _ =>
        (orderly_segment _ _ _).relates_keepsFolders.bind isChange fun _ =>
          (reports _).bind isChange fun _ =>
            (orderly_generate _ _ _).relates_keepsFolders.bind isChange fun _ =>
              (reports _).bind isChange fun _ => Job.relates_pure isChange _

namespace CommandLine

/-- The line that tells a number of files of some modules in a folder. -/
def packedLine (modules : List UInt32) (count : Nat) (folder : Path) : OutputLine :=
  .text (s!"  Packed:    {Command.moduleNames modules} " ++
    s!"({count} files) in {folder.text}")

/-- The line tells the modules of some items that were packed, and counts the sets in the
folder that the manifest lists. -/
def TellsPacked (line : OutputLine) (items : List Item) (tree files : FileTree)
    (folder : Path) : Prop :=
  ∃ count, line = packedLine (items.map Item.module).eraseDups count folder ∧
    (items = [] → count = 0) ∧
    (items ≠ [] → tree.CountsSets files folder (items.map Item.module).eraseDups count)

theorem tellsPacked_of_run
    {banks : List Path} {folder : Path} {selected : Option UInt32} {packing : Packing}
    (run : (packBanks banks folder selected).runOn tree = (.ok packing, after)) :
    ∃ items, ((readBanks banks).runOn tree).1 = .ok items ∧
      packing.modules = ((selectedItems selected items).map Item.module).eraseDups ∧
      TellsPacked (Command.packingLine packing) (selectedItems selected items) tree
        after.files folder := by
  have yields := Job.yields_iff_runOn.2 run
  obtain ⟨items, between, reads, same, packs⟩ := yields_packBanks yields
  have modules := modules_of_yields_pack packs
  refine ⟨items, congrArg Prod.fst (Job.yields_iff_runOn.1 reads), modules, ?_⟩
  rw [TellsPacked, ← modules]
  refine ⟨packing.manifest.sets.length, ?_, ?_, ?_⟩
  · exact congrArg (packedLine _ _) (folder_of_yields_packBanks yields)
  · intro nothing
    rw [(yields_pack_of_nil nothing packs).1]
    rfl
  · intro something
    refine countsSets_of_yields yields ?_
    rw [packing_of_yields something packs]
    exact mt (List.map_eq_nil_iff.trans groupByModule_eq_nil_iff).1 something

/-! ## Both commands -/

theorem runOn_runPack
    {banks : List Path} {folder : Path} {selected : Option UInt32} {packing : Packing}
    (run : (packBanks banks folder selected).runOn tree = (.ok packing, after))
    (something : packing.modules ≠ []) :
    (Command.runPack banks folder selected).runOn tree =
      (.ok [Command.packingLine packing], after) := by
  have isEmpty : packing.modules.isEmpty = false := by simpa using something
  refine Job.yields_iff_runOn.1 (Job.yields_bind.2 ⟨packing, after, run, ?_⟩)
  rw [isEmpty]
  exact Job.yields_pure.2 ⟨rfl, rfl⟩

theorem exists_of_yields_runPack
    {banks : List Path} {folder : Path} {selected : Option UInt32}
    {lines : List OutputLine}
    (yields : (Command.runPack banks folder selected).Yields session lines after) :
    ∃ packing, (packBanks banks folder selected).Yields session packing after ∧
      packing.modules ≠ [] ∧ lines = [Command.packingLine packing] := by
  obtain ⟨packing, between, packs, prints⟩ := Job.yields_bind.1 yields
  cases isEmpty : packing.modules.isEmpty with
  | true =>
      rw [isEmpty] at prints
      exact absurd prints Job.not_yields_throw
  | false =>
      rw [isEmpty] at prints
      obtain ⟨rfl, rfl⟩ := Job.yields_pure.1 prints
      exact ⟨packing, packs, by simpa using isEmpty, rfl⟩

/-- A whole run packs the files that its other stages leave. -/
theorem exists_of_runOn_runAllStages
    {lines : List OutputLine}
    (run : (Command.runAllStages config).runOn tree = (.ok lines, after)) :
    let middle := ((beforePacking config).runOn tree).2.files
    tree.KeepsFolders middle ∧
      ∃ packing other, (packBanks [config.paths.packedBank] config.paths.sets none).runOn
          middle = (.ok packing, other) ∧
        other.files = after.files ∧
        ∃ front, lines = front ++ [Command.packingLine packing, .elapsed, .text ""] := by
  intro middle
  obtain ⟨report, _, runs, prints⟩ := Job.yields_bind.1 (Job.yields_iff_runOn.2 run)
  obtain ⟨rfl, rfl⟩ := Job.yields_pure.1 prints
  rw [runAll_eq_beforePacking] at runs
  obtain ⟨reports, between, stages, runs⟩ := Job.yields_bind.1 runs
  obtain ⟨packing, packed, packs, runs⟩ := Job.yields_bind.1 runs
  obtain ⟨_, _, isDone, returns⟩ := Job.yields_bind.1 runs
  obtain rfl := Job.yields_report.1 isDone
  obtain ⟨rfl, rfl⟩ := Job.yields_pure.1 returns
  have isMiddle : between.files = middle :=
    congrArg (fun outcome => outcome.2.files) (Job.yields_iff_runOn.1 stages).symm
  obtain ⟨other, packsAlone, same⟩ :=
    (orderly_packBanks [config.paths.packedBank] config.paths.sets none).runOn_of_yields packs
  rw [isMiddle] at packsAlone
  exact ⟨relates_keepsFolders_beforePacking config ⟨tree, []⟩, packing, other, packsAlone,
    same, [_, _, _, _, _], rfl⟩

/-- A command that packs banks names the modules of the items that it packed, and the number
of all sets that the manifest of the folder lists then. In a folder that nothing but packing
has put sets into, this is the number of all sets that are there, so that it is twice the
number of the modules when no earlier packing has left a set of another module. -/
theorem summary_counts_sets (tree : FileTree) :
    (∀ banks folder selected lines after,
      (Command.runPack banks folder selected).runOn tree = (.ok lines, after) →
      ∃ items line, ((readBanks banks).runOn tree).1 = .ok items ∧
        selectedItems selected items ≠ [] ∧ lines = [line] ∧
        TellsPacked line (selectedItems selected items) tree after.files folder ∧
        (BankHistory folder tree → BankHistory folder after.files)) ∧
      ∀ config lines after,
        (Command.runAllStages config).runOn tree = (.ok lines, after) →
        let middle := ((beforePacking config).runOn tree).2.files
        let folder := config.paths.sets
        ∃ items line front, ((readBanks [config.paths.packedBank]).runOn middle).1 =
            .ok items ∧
          lines = front ++ [line, .elapsed, .text ""] ∧
          TellsPacked line items middle after.files folder ∧
          (BankHistory folder tree →
            (∀ name, IsName name →
              middle.node? (folder.place ++ [name]) = tree.node? (folder.place ++ [name])) →
            BankHistory folder middle ∧ BankHistory folder after.files) := by
  constructor
  · intro banks folder selected lines after run
    obtain ⟨packing, packs, something, rfl⟩ :=
      exists_of_yields_runPack (Job.yields_iff_runOn.2 run)
    have packRun := Job.yields_iff_runOn.1 packs
    obtain ⟨items, areItems, modules, tells⟩ := tellsPacked_of_run packRun
    refine ⟨items, _, areItems, ?_, rfl, tells, fun history => .packed history packRun⟩
    intro nothing
    rw [nothing] at modules
    exact something modules
  · intro config lines after run middle folder
    obtain ⟨keeps, packing, other, packRun, same, front, areLines⟩ :=
      exists_of_runOn_runAllStages run
    obtain ⟨items, areItems, _, tells⟩ := tellsPacked_of_run packRun
    have all : selectedItems none items = items := by
      simp [selectedItems]
    rw [all, same] at tells
    refine ⟨items, _, front, areItems, areLines, tells, fun history untouched => ?_⟩
    have before : BankHistory folder middle := .elsewhere history ⟨keeps, untouched⟩
    exact ⟨before, same ▸ .packed before packRun⟩

/-- What the other stages of a whole run leave before the bank is packed. -/
def draftedCourse : FileTree :=
  ((beforePacking editedConfig).runOn editedCourse).2.files

/-- A bank is packed into a new folder by itself, and at the end of a whole run. -/
theorem summary_counts_sets_of_editedCourse :
    BankHistory editedConfig.paths.sets editedCourse ∧
      (∀ name, IsName name →
        draftedCourse.node? (editedConfig.paths.sets.place ++ [name]) =
          editedCourse.node? (editedConfig.paths.sets.place ++ [name])) ∧
      (∃ lines after,
        (Command.runPack [⟨"bank.jsonl"⟩] editedConfig.paths.sets none).runOn editedCourse =
          (.ok lines, after) ∧
        ∃ items line, lines = [line] ∧ selectedItems none items ≠ [] ∧
          TellsPacked line (selectedItems none items) editedCourse after.files
            editedConfig.paths.sets ∧
          BankHistory editedConfig.paths.sets after.files) ∧
      ∃ lines after, (Command.runAllStages editedConfig).runOn editedCourse =
          (.ok lines, after) ∧
        ∃ items line front, lines = front ++ [line, .elapsed, .text ""] ∧
          TellsPacked line items draftedCourse after.files editedConfig.paths.sets ∧
          BankHistory editedConfig.paths.sets draftedCourse ∧
          BankHistory editedConfig.paths.sets after.files := by
  obtain ⟨packsOk, runsOk, noSets, noSetsDrafted⟩ :
      ((Command.runPack [⟨"bank.jsonl"⟩] editedConfig.paths.sets none).runOn
          editedCourse).1.isOk = true ∧
        ((Command.runAllStages editedConfig).runOn editedCourse).1.isOk = true ∧
        (∀ place ∈ editedCourse.nodes.map Prod.fst,
          place.dropLast ≠ editedConfig.paths.sets.place) ∧
        ∀ place ∈ draftedCourse.nodes.map Prod.fst,
          place.dropLast ≠ editedConfig.paths.sets.place := by
    decide +kernel
  have vacant := FileTree.isVacant_of_nodes noSets
  have start : BankHistory editedConfig.paths.sets editedCourse := .start vacant.hasNoSets
  have untouched (name : String) (isName : IsName name) :
      draftedCourse.node? (editedConfig.paths.sets.place ++ [name]) =
        editedCourse.node? (editedConfig.paths.sets.place ++ [name]) := by
    rw [vacant name isName, FileTree.isVacant_of_nodes noSetsDrafted name isName]
  obtain ⟨_, packRun⟩ := Job.exists_of_isOk packsOk
  obtain ⟨_, wholeRun⟩ := Job.exists_of_isOk runsOk
  obtain ⟨ofPack, ofRun⟩ := summary_counts_sets editedCourse
  obtain ⟨items, line, _, something, areLines, tells, later⟩ := ofPack _ _ _ _ _ packRun
  obtain ⟨allItems, runLine, front, _, areRunLines, runTells, runLater⟩ :=
    ofRun _ _ _ wholeRun
  exact ⟨start, untouched,
    ⟨_, _, packRun, items, line, areLines, something, tells, later start⟩,
    ⟨_, _, wholeRun, allItems, runLine, front, areRunLines, runTells,
      runLater start untouched⟩⟩

/-- Packing a bank of usable items packs the items. -/
theorem runOn_packBanks_of_read
    {files : FileTree} {bank folder : Path} {selected : Option UInt32} {items : List Item}
    (valid : ∀ item ∈ items, item.isValid = true)
    (isRead : files.read bank = .ok (Records.render items).toUTF8) :
    (packBanks [bank] folder selected).runOn files =
      (pack items folder selected).runOn files := by
  have reads := runOn_readBanks_of_texts (.cons isRead .nil)
  rw [List.flatMap_singleton, usableItems, Records.parse_render,
    List.filter_eq_self.2 valid] at reads
  rw [Job.runOn, packBanks, Job.run_bind, ← Job.runOn, reads]
  rfl

/-- An item of module six and one of module eight. -/
def twoModuleItems : List Item :=
  [sampleItem 6, sampleItem 8]

/-- A bank with these items. -/
def twoModuleBank : FileTree where
  nodes := [(["bank.jsonl"], .file (Records.render twoModuleItems).toUTF8)]
  distinct := by simp

/-- What is there when module six has been packed. -/
def oneModulePacked : FileTree :=
  ((pack twoModuleItems ⟨"o"⟩ (some 6)).runOn twoModuleBank).2.files

/-- What is there when module eight has been packed after it. -/
def bothModulesPacked : FileTree :=
  ((pack twoModuleItems ⟨"o"⟩ (some 8)).runOn oneModulePacked).2.files

theorem setsIn_bothModulesPacked :
    bothModulesPacked.setsIn ⟨"o"⟩ =
      ({(.practice, 6), (.memorize, 6), (.practice, 8), (.memorize, 8)} :
        Finset (SetMode × UInt32)) := by
  obtain ⟨places, areThere⟩ :
      bothModulesPacked.nodes.map Prod.fst =
          [["o", "manifest.json"], ["o", SetMode.memorize.fileName 8],
            ["o", SetMode.practice.fileName 8], ["o", SetMode.memorize.fileName 6],
            ["o", SetMode.practice.fileName 6], ["o"], ["bank.jsonl"]] ∧
        ∀ set ∈ [(.practice, 6), (.memorize, 6), (.practice, 8),
            ((.memorize, 8) : SetMode × UInt32)],
          (bothModulesPacked.read
            ((Path.mk "o").join (set.1.fileName set.2))).isOk = true := by
    decide +kernel
  ext ⟨mode, module⟩
  constructor
  · rintro ⟨content, isRead⟩
    have isFile := FileTree.node?_of_read isRead
    rw [FileTree.place_join _ (SetMode.isOpenName_fileName mode module).isName] at isFile
    have isPlace := List.mem_map_of_mem (f := Prod.fst) (FileTree.mem_nodes_of_isFile isFile)
    rw [places] at isPlace
    have place : (Path.mk "o").place = ["o"] := by
      decide +kernel
    have notManifest : mode.fileName module ≠ "manifest.json" :=
      SetMode.fileName_ne_manifest mode module
    simp only [place, List.singleton_append, List.mem_cons, List.cons.injEq, notManifest,
      SetMode.fileName_inj, and_true, true_and, reduceCtorEq, and_false, List.not_mem_nil,
      or_false, false_or] at isPlace
    rcases isPlace with ⟨rfl, rfl⟩ | ⟨rfl, rfl⟩ | ⟨rfl, rfl⟩ | ⟨rfl, rfl⟩ <;> decide
  · intro member
    have isOk := areThere (mode, module) (by simpa using member)
    cases isRead : bothModulesPacked.read ((Path.mk "o").join (mode.fileName module)) with
    | ok content => exact ⟨content, isRead⟩
    | error fault =>
        rw [isRead] at isOk
        exact absurd isOk Bool.false_ne_true

theorem read_twoModuleBank :
    twoModuleBank.read ⟨"bank.jsonl"⟩ = .ok (Records.render twoModuleItems).toUTF8 := by
  have isOk : (twoModuleBank.read ⟨"bank.jsonl"⟩).isOk = true := by
    decide +kernel
  cases isRead : twoModuleBank.read ⟨"bank.jsonl"⟩ with
  | error fault =>
      rw [isRead] at isOk
      exact absurd isOk nofun
  | ok content =>
      have place : (Path.mk "bank.jsonl").place = ["bank.jsonl"] := by
        decide +kernel
      have isStored : twoModuleBank.node? ["bank.jsonl"] =
          some (.file (Records.render twoModuleItems).toUTF8) := by
        simp [FileTree.node?, twoModuleBank, Location.isAnchor]
      have isFile := FileTree.node?_of_read isRead
      rw [place, isStored, Option.some.injEq, Node.file.injEq] at isFile
      rw [isFile]

/-- After module six was packed, packing module eight into the same folder writes two files
and tells four. -/
theorem summary_counts_older_sets :
    ∃ first second lines,
      (Command.runPack [⟨"bank.jsonl"⟩] ⟨"o"⟩ (some 6)).runOn twoModuleBank =
        (.ok lines, first) ∧
      (Command.runPack [⟨"bank.jsonl"⟩] ⟨"o"⟩ (some 8)).runOn first.files =
        (.ok [.text "  Packed:    m8 (4 files) in o"], second) := by
  obtain ⟨firstModules, secondModules⟩ :
      ((pack twoModuleItems ⟨"o"⟩ (some 6)).runOn twoModuleBank).1.toOption.map
          Packing.modules = some [6] ∧
        ((pack twoModuleItems ⟨"o"⟩ (some 8)).runOn oneModulePacked).1.toOption.map
          Packing.modules = some [8] := by
    decide +kernel
  obtain ⟨first, isFirst, areFirst⟩ := Option.map_eq_some_iff.1 firstModules
  obtain ⟨second, isSecond, areSecond⟩ := Option.map_eq_some_iff.1 secondModules
  have valid : ∀ item ∈ twoModuleItems, item.isValid = true := by
    decide +kernel
  have firstRun := Job.runOn_of_toOption isFirst
  have secondRun := Job.runOn_of_toOption isSecond
  -- The sessions get names, so that no step evaluates the runs that lead to them.
  obtain ⟨middle, isMiddle⟩ : ∃ middle,
      ((pack twoModuleItems ⟨"o"⟩ (some 6)).runOn twoModuleBank).2 = middle := ⟨_, rfl⟩
  obtain ⟨final, isFinal⟩ : ∃ final,
      ((pack twoModuleItems ⟨"o"⟩ (some 8)).runOn oneModulePacked).2 = final := ⟨_, rfl⟩
  have middleFiles : oneModulePacked = middle.files := by
    rw [oneModulePacked, isMiddle]
  have finalFiles : bothModulesPacked = final.files := by
    rw [bothModulesPacked, isFinal]
  rw [isMiddle] at firstRun
  rw [isFinal, middleFiles] at secondRun
  have alters := alters_pack (Job.yields_iff_runOn.2 firstRun)
  have isKept : middle.files.read ⟨"bank.jsonl"⟩ =
      .ok (Records.render twoModuleItems).toUTF8 := by
    apply FileTree.read_of_kept read_twoModuleBank alters.keepsFolders
    have isFile := FileTree.node?_of_read read_twoModuleBank
    rw [isFile]
    exact (alters.sameFile _ (by decide +kernel) _).2 isFile
  rw [← runOn_packBanks_of_read valid read_twoModuleBank] at firstRun
  rw [← runOn_packBanks_of_read valid isKept] at secondRun
  have somethingFirst : first.modules ≠ [] := by
    rw [areFirst]
    exact nofun
  have somethingSecond : second.modules ≠ [] := by
    rw [areSecond]
    exact nofun
  have start : BankHistory ⟨"o"⟩ twoModuleBank :=
    .start (FileTree.isVacant_of_nodes (by decide +kernel)).hasNoSets
  have history : BankHistory ⟨"o"⟩ middle.files := .packed start firstRun
  have counts := countsSets_of_yields (Job.yields_iff_runOn.2 secondRun) somethingSecond
  have count : second.manifest.sets.length = 4 := by
    rw [(counts.ofHistory history).1, ← finalFiles,
      setsIn_bothModulesPacked, Set.ncard_coe_finset]
    decide
  have isLine : Command.packingLine second = .text "  Packed:    m8 (4 files) in o" := by
    rw [Command.packingLine, areSecond, count,
      folder_of_yields_packBanks (Job.yields_iff_runOn.2 secondRun)]
    decide +kernel
  refine ⟨middle, final, _, runOn_runPack firstRun somethingFirst, ?_⟩
  rw [← isLine]
  exact runOn_runPack secondRun somethingSecond

end CommandLine

end LectureQuiz
