import LectureQuiz.Proofs.QuizSet.OnlyPacked
import LectureQuiz.Proofs.Stage.Generate
import LectureQuiz.Proofs.Stage.Plans

/-!
# Running all stages once more

A run of all stages finds its own outputs in their places when it is run once more, and
older files among them. As long as its folders and files are apart from each other, it
does the same again and changes nothing.
-/

namespace LectureQuiz

open LectureQuiz.Text

theorem yields_loadIndex_iff
    {path : Path} {index : VideoIndex} {session after : Session} :
    (loadIndex path).Yields session index after ↔
      (∃ content, session.files.read path = .ok content ∧
        VideoIndex.ofCsv? content.data.toList = some index) ∧ after = session := by
  simp only [loadIndex, Job.yields_bind, Job.yields_files]
  constructor
  · intro yields
    rcases yields with ⟨_, between, ⟨rfl, rfl⟩, yieldsIndex⟩
    split at yieldsIndex
    · exact absurd yieldsIndex Job.not_yields_throw
    · exact absurd yieldsIndex Job.not_yields_throw
    · rename_i content isRead
      split at yieldsIndex
      · rename_i found isIndex
        rcases Job.yields_pure.1 yieldsIndex with ⟨rfl, rfl⟩
        exact ⟨⟨content, isRead, isIndex⟩, rfl⟩
      · exact absurd yieldsIndex Job.not_yields_throw
  · intro isLoaded
    rcases isLoaded with ⟨⟨content, isRead, isIndex⟩, rfl⟩
    refine ⟨_, after, ⟨rfl, rfl⟩, ?_⟩
    rw [isRead]
    dsimp only
    rw [isIndex]
    exact Job.yields_pure.2 ⟨rfl, rfl⟩

namespace Job.Echoes

variable {tree other : FileTree}

theorem loadIndex
    {path : Path} (keeps : tree.KeepsFolders other)
    (same : tree.SameFile other path.place) : (loadIndex path).Echoes tree other := by
  intro session after index isTree yields
  subst isTree
  rcases yields_loadIndex_iff.1 yields with ⟨⟨content, isRead, isIndex⟩, rfl⟩
  refine ⟨rfl, fun session like => ⟨session, ?_, like⟩⟩
  have isReadHere := like.symm.read (same.read keeps isRead)
  exact yields_loadIndex_iff.2 ⟨⟨content, isReadHere, isIndex⟩, rfl⟩

theorem readBanks
    {banks : List Path} (keeps : tree.KeepsFolders other)
    (same : ∀ bank ∈ banks, tree.SameFile other bank.place) :
    (readBanks banks).Echoes tree other :=
  (mapM fun bank member => readRecords keeps (same bank member)).bind
    fun _ _ _ _ _ => pure _

end Job.Echoes

theorem footprint_loadIndex
    {path : Path} {index : VideoIndex} {session after : Session}
    (yields : (loadIndex path).Yields session index after) :
    after.files = session.files ∧
      (loadIndex path).Footprint index session.files session.files (· = path.place)
        fun _ => False := by
  apply Job.Echoes.footprint ?_ yields
  exact fun other keeps same => .loadIndex keeps (same path.place rfl)

theorem footprint_readBanks
    {bank : Path} {items : List Item} {session after : Session}
    (yields : (readBanks [bank]).Yields session items after) :
    after.files = session.files ∧
      (readBanks [bank]).Footprint items session.files session.files (· = bank.place)
        fun _ => False := by
  apply Job.Echoes.footprint ?_ yields
  intro other keeps same
  exact .readBanks keeps (List.forall_mem_singleton.2 (same bank.place rfl))

theorem footprint_generate
    {rules : RuleSet} {segments bank : Path} {report : GenerateReport}
    {session after : Session}
    (yields : (generate rules segments bank).Yields session report after)
    (wellNamed : session.files.WellNamed) :
    (generate rules segments bank).Footprint report session.files after.files
      segments.Encloses (· = bank.place) := by
  rcases hasBank_of_yields yields with ⟨has, rfl, hasBank⟩
  refine ⟨⟨hasBank.keeps, hasBank.elsewhere⟩, fun other keeps sameRead sameLeft => ?_⟩
  have keepsAll := hasBank.keeps.trans keeps
  have same := FileTree.filesIn_congr wellNamed keepsAll has.isFolder
    isExtension_jsonl.notEmpty fun name hasExtension =>
      sameRead _ (segments.encloses_of_extension hasExtension isExtension_jsonl.notEmpty)
  exact hasBank.repeats keeps (has.of_filesIn keepsAll same) (FileTree.segmentsAt_congr same)
    (sameLeft _ rfl)

theorem footprint_ingest
    {index : VideoIndex} {placeholders out : Path} {report : IngestReport}
    {session after : Session}
    (yields : (ingest index placeholders out).Yields session report after)
    (wellNamed : session.files.WellNamed) (safe : session.files.SafeHeaders out) :
    (ingest index placeholders out).Footprint report session.files after.files
        placeholders.Encloses out.Encloses ∧
      after.files.WellNamed ∧ after.files.SafeHeaders out := by
  rcases yields_ingest_iff.1 yields with ⟨_, yieldsRun, rfl⟩
  rcases Transcription.exists_leaves (safe_ingestion wellNamed) wellNamed yieldsRun with
    ⟨made, steps, leaves, rfl⟩
  refine ⟨?_, leaves.wellNamed wellNamed, leaves.safeHeaders safe⟩
  exact (leaves.footprint wellNamed).of_yields_iff fun _ _ _ => yields_ingest_iff

theorem footprint_segment
    {bounds : Window.Bounds} {transcripts out : Path} {report : SegmentReport}
    {session after : Session}
    (yields : (segment bounds transcripts out).Yields session report after)
    (wellNamed : session.files.WellNamed) (safe : session.files.SafeHeaders transcripts) :
    (segment bounds transcripts out).Footprint report session.files after.files
        transcripts.Encloses out.Encloses ∧
      after.files.WellNamed := by
  rcases yields_segment_iff.1 yields with ⟨_, yieldsRun, rfl⟩
  rcases Transcription.exists_leaves (safe_segmentation wellNamed safe) wellNamed
      yieldsRun with ⟨made, steps, leaves, rfl⟩
  refine ⟨?_, leaves.wellNamed wellNamed⟩
  exact (leaves.footprint wellNamed).of_yields_iff fun _ _ _ => yields_segment_iff

namespace Paths

/-- The folders that the stages read or write. -/
def folders (paths : Paths) : List Path :=
  [paths.placeholders, paths.transcripts, paths.segments, paths.sets]

/-- The files that the stages read or write besides those in the folders. -/
def files (paths : Paths) : List Path :=
  paths.index :: paths.draftBank :: paths.finalBank.toList

/-- No folder is another one or lies in it, and the files are different ones outside of
the folders. -/
structure AreApart (paths : Paths) : Prop where
  folders : paths.folders.Pairwise Path.Apart
  files : paths.files.Pairwise fun first second => first.place ≠ second.place
  outside : ∀ folder ∈ paths.folders, ∀ file ∈ paths.files,
    ¬folder.Encloses file.place

end Paths

namespace Paths

variable {paths : Paths}

theorem packedBank_mem_files (paths : Paths) : paths.packedBank ∈ paths.files := by
  cases isFinal : paths.finalBank <;> simp [packedBank, files, isFinal]

namespace AreApart

theorem folders_apart (apart : paths.AreApart) :
    (paths.placeholders.Apart paths.transcripts ∧
      paths.placeholders.Apart paths.segments ∧ paths.placeholders.Apart paths.sets) ∧
    (paths.transcripts.Apart paths.segments ∧ paths.transcripts.Apart paths.sets) ∧
    paths.segments.Apart paths.sets := by
  simpa [Paths.folders] using apart.folders

theorem index_ne_draftBank (apart : paths.AreApart) :
    paths.index.place ≠ paths.draftBank.place :=
  (List.pairwise_cons.1 apart.files).1 _ List.mem_cons_self

theorem file_outside
    (apart : paths.AreApart) {file : Path} (isFile : file ∈ paths.files) :
    ¬paths.placeholders.Encloses file.place ∧
      ¬paths.transcripts.Encloses file.place ∧
      ¬paths.segments.Encloses file.place ∧ ¬paths.sets.Encloses file.place := by
  have outside : ∀ folder ∈ paths.folders, ¬folder.Encloses file.place :=
    fun folder isFolder => apart.outside folder isFolder file isFile
  simpa [Paths.folders] using outside

/-- What lies in a folder is not a file outside of it. -/
theorem ne_draftBank
    (apart : paths.AreApart) {folder : Path} (isFolder : folder ∈ paths.folders)
    {place : Location} (inside : folder.Encloses place) :
    place ≠ paths.draftBank.place := by
  intro same
  have isFile : paths.draftBank ∈ paths.files :=
    List.mem_cons_of_mem _ List.mem_cons_self
  exact apart.outside folder isFolder paths.draftBank isFile (same ▸ inside)

end AreApart

end Paths

/-! ## Runs of all stages -/

/-- What a successful run of all stages did, stage by stage. -/
structure WholeRun (config : Config) (tree ingested segmented generated final : FileTree)
    (index : VideoIndex) (rules : RuleSet) (items : List Item) (report : RunReport) :
    Prop where
  loads : (loadIndex config.paths.index).Footprint index tree tree
    (· = config.paths.index.place) fun _ => False
  hasBounds : checkBounds config.bounds = .ok ()
  hasRules : config.ruleSet = .ok rules
  ingests : (ingest index config.paths.placeholders config.paths.transcripts).Footprint
    report.ingest tree ingested config.paths.placeholders.Encloses
      config.paths.transcripts.Encloses
  segments : (segment config.bounds config.paths.transcripts
    config.paths.segments).Footprint report.segment ingested segmented
      config.paths.transcripts.Encloses config.paths.segments.Encloses
  generates : (generate rules config.paths.segments config.paths.draftBank).Footprint
    report.generate segmented generated config.paths.segments.Encloses
      (· = config.paths.draftBank.place)
  reads : (readBanks [config.paths.packedBank]).Footprint items generated generated
    (· = config.paths.packedBank.place) fun _ => False
  alters : generated.Alters final config.paths.sets.Encloses
  packs : (pack items config.paths.sets none).Repeats report.packing final

namespace WholeRun

variable {config : Config} {tree ingested segmented generated final : FileTree}
  {index : VideoIndex} {rules : RuleSet} {items : List Item} {report : RunReport}

/-- No stage changes what an earlier one has read or left. -/
theorem repeats
    (run : WholeRun config tree ingested segmented generated final index rules items
      report)
    (apart : config.paths.AreApart) : (runAll config).Repeats report final := by
  rcases apart.folders_apart with ⟨⟨rawTranscripts, rawSegments, rawSets⟩,
    ⟨transcriptsSegments, transcriptsSets⟩, segmentsSets⟩
  have isIndex : config.paths.index ∈ config.paths.files := List.mem_cons_self
  have isDraft : config.paths.draftBank ∈ config.paths.files :=
    List.mem_cons_of_mem _ List.mem_cons_self
  have notDraft {folder : Path} {place : Location} (inside : folder.Encloses place)
      (isFolder : folder ∈ config.paths.folders) :
      place ≠ config.paths.draftBank.place := apart.ne_draftBank isFolder inside
  simp only [Paths.folders, List.mem_cons] at notDraft
  have fromGenerated := run.alters
  have fromSegmented := run.generates.alters.trans fromGenerated
  have fromIngested := run.segments.alters.trans fromSegmented
  have fromTree := run.ingests.alters.trans fromIngested
  have loads : (loadIndex config.paths.index).Repeats index final := by
    apply run.loads.repeats final fromTree.keepsFolders
    · intro place isPlace
      rw [isPlace]
      rcases apart.file_outside isIndex with ⟨_, notTranscripts, notSegments, notSets⟩
      exact fromTree.sameFile _ (not_or.2 ⟨notTranscripts, not_or.2 ⟨notSegments,
        not_or.2 ⟨apart.index_ne_draftBank, notSets⟩⟩⟩)
    · exact fun _ => False.elim
  have ingests : (ingest index config.paths.placeholders
      config.paths.transcripts).Repeats report.ingest final := by
    apply run.ingests.repeats final fromIngested.keepsFolders
    · intro place inside
      exact fromTree.sameFile place (not_or.2 ⟨rawTranscripts.outside inside,
        not_or.2 ⟨rawSegments.outside inside, not_or.2
          ⟨notDraft inside (by simp), rawSets.outside inside⟩⟩⟩)
    · intro place inside
      exact fromIngested.sameFile place (not_or.2 ⟨transcriptsSegments.outside inside,
        not_or.2 ⟨notDraft inside (by simp), transcriptsSets.outside inside⟩⟩)
  have segments : (segment config.bounds config.paths.transcripts
      config.paths.segments).Repeats report.segment final := by
    apply run.segments.repeats final fromSegmented.keepsFolders
    · intro place inside
      exact fromIngested.sameFile place (not_or.2 ⟨transcriptsSegments.outside inside,
        not_or.2 ⟨notDraft inside (by simp), transcriptsSets.outside inside⟩⟩)
    · intro place inside
      exact fromSegmented.sameFile place (not_or.2
        ⟨notDraft inside (by simp), segmentsSets.outside inside⟩)
  have generates : (generate rules config.paths.segments
      config.paths.draftBank).Repeats report.generate final := by
    apply run.generates.repeats final fromGenerated.keepsFolders
    · intro place inside
      exact fromSegmented.sameFile place (not_or.2
        ⟨notDraft inside (by simp), segmentsSets.outside inside⟩)
    · intro place isPlace
      rw [isPlace]
      exact fromGenerated.sameFile _ (apart.file_outside isDraft).2.2.2
  have reads : (readBanks [config.paths.packedBank]).Repeats items final := by
    apply run.reads.repeats final fromGenerated.keepsFolders
    · intro place isPlace
      rw [isPlace]
      have isPacked := config.paths.packedBank_mem_files
      exact fromGenerated.sameFile _ (apart.file_outside isPacked).2.2.2
    · exact fun _ => False.elim
  rw [runAll]
  exact (Job.Repeats.report _ _).bind <| loads.bind <|
    (Job.Repeats.liftM run.hasBounds _).bind <|
    (Job.Repeats.liftM run.hasRules _).bind <|
    (Job.Repeats.report _ _).bind <| ingests.bind <|
    (Job.Repeats.report _ _).bind <| segments.bind <|
    (Job.Repeats.report _ _).bind <| generates.bind <|
    (Job.Repeats.report _ _).bind <| (reads.bind run.packs).bind <|
    (Job.Repeats.report _ _).bind <| Job.Repeats.pure _ _

end WholeRun

/-- Every successful run is such a run, when only packing has written into the folder
of the sets. -/
theorem exists_wholeRun
    {config : Config} {session after : Session} {report : RunReport}
    (apart : config.paths.AreApart) (wellNamed : session.files.WellNamed)
    (safe : session.files.SafeHeaders config.paths.transcripts)
    (packed : OnlyPacked config.paths.sets.place session.files)
    (yields : (runAll config).Yields session report after) :
    ∃ ingested segmented generated index rules items,
      WholeRun config session.files ingested segmented generated after.files index rules
        items report := by
  simp only [runAll, packBanks, Job.yields_bind, Job.yields_report, Job.yields_liftM,
    Job.yields_pure] at yields
  rcases yields with ⟨_, _, rfl, index, afterIndex, loads, _, _, ⟨hasBounds, rfl⟩,
    rules, _, ⟨hasRules, rfl⟩, _, _, rfl, ingested, afterIngest, ingests, _, _, rfl,
    segmented, afterSegment, segments, _, _, rfl, generated, afterGenerate, generates,
    _, _, rfl, packing, afterPack, ⟨items, afterReading, reads, packs⟩, _, _, rfl, rfl,
    rfl⟩
  rcases footprint_loadIndex loads with ⟨isTree, footprintIndex⟩
  dsimp only at isTree footprintIndex
  rw [isTree] at ingests
  rcases footprint_ingest ingests wellNamed safe with
    ⟨footprintIngest, wellNamedIngested, safeIngested⟩
  rcases footprint_segment segments wellNamedIngested safeIngested with
    ⟨footprintSegment, wellNamedSegmented⟩
  have footprintGenerate := footprint_generate generates wellNamedSegmented
  rcases footprint_readBanks reads with ⟨isGenerated, footprintBanks⟩
  dsimp only at isGenerated footprintBanks
  have alters := footprintIngest.alters.trans
    (footprintSegment.alters.trans footprintGenerate.alters)
  rcases apart.folders_apart with ⟨_, ⟨_, transcriptsSets⟩, segmentsSets⟩
  have inSets := config.paths.sets.encloses_append Manifest.isOpenName_fileName.isName
  have sameManifest := alters.sameFile _ (not_or.2
    ⟨fun inside => transcriptsSets.outside inside inSets, not_or.2
      ⟨fun inside => segmentsSets.outside inside inSets,
        apart.ne_draftBank (by simp [Paths.folders]) inSets⟩⟩)
  have found := (packed.hasPackedManifest.of_sameFile sameManifest).isPacked
  have altersSets := alters_pack packs
  rw [isGenerated] at altersSets
  rw [← isGenerated] at found
  have repeats := repeats_pack found packs
  exact ⟨afterIngest.files, afterSegment.files, afterGenerate.files, index, rules, items,
    footprintIndex, hasBounds, hasRules, footprintIngest, footprintSegment,
    footprintGenerate, footprintBanks, altersSets, repeats⟩

/-- When all stages have succeeded, running them once more succeeds with the same report
and changes nothing. Older files may lie among their inputs and outputs, but nothing
else than packing may have written into the folder of the sets. -/
theorem runAll_again
    {config : Config} {tree : FileTree} {report : RunReport} {session : Session}
    (apart : config.paths.AreApart) (wellNamed : tree.WellNamed)
    (safe : tree.SafeHeaders config.paths.transcripts)
    (packed : OnlyPacked config.paths.sets.place tree)
    (run : (runAll config).runOn tree = (.ok report, session)) :
    ∃ again, (runAll config).runOn session.files = (.ok report, again) ∧
      ∀ place, again.files.node? place = session.files.node? place := by
  have yields := Job.yields_iff_runOn.2 run
  rcases exists_wholeRun apart wellNamed safe packed yields with
    ⟨ingested, segmented, generated, index, rules, items, whole⟩
  rcases whole.repeats apart ⟨session.files, []⟩ (.refl _) with ⟨again, yields, like⟩
  exact ⟨again, Job.yields_iff_runOn.1 yields, like⟩

/-- A configuration that keeps everything in the working folder, with a bank that was
edited by hand. -/
def editedConfig : Config where
  paths :=
    { index := ⟨"index.csv"⟩, placeholders := ⟨"raw"⟩, transcripts := ⟨"text"⟩,
      segments := ⟨"cut"⟩, draftBank := ⟨"draft.jsonl"⟩,
      finalBank := some ⟨"bank.jsonl"⟩, sets := ⟨"sets"⟩ }

/-- A raw transcript that the index does not know, and a bank with one item. -/
def editedCourse : FileTree where
  nodes :=
    [(["index.csv"], .file "".toUTF8),
      (["bank.jsonl"], .file ("\x7b\"id\":\"a\",\"module\":1,\"type\":\"tf\"," ++
        "\"question\":\"Q\",\"choices\":[\"True\",\"False\"]," ++
        "\"answer_index\":0\x7d\n").toUTF8),
      (["raw"], .folder), (["raw", "a.txt"], .file "A tree.\n".toUTF8)]
  distinct := by simp

/-- Nothing lies in a folder of the working folder in which no node was put. -/
theorem node?_editedCourse_of_absent
    {folder name : String} (isName : IsName name) (absent : folder ≠ "raw") :
    editedCourse.node? ([folder] ++ [name]) = none := by
  have different : (folder == "raw") = false := by simpa using absent
  rw [FileTree.node?, isName.isAnchor_append]
  simp [editedCourse, List.lookup_cons, different]

/-- The document and the segments of the transcript are written, and the sets of the
item, and then all are found as they are. -/
theorem runAll_editedCourse_again :
    ∃ report session, (runAll editedConfig).runOn editedCourse = (.ok report, session) ∧
      report.packing.modules = [1] ∧
      ∃ again, (runAll editedConfig).runOn session.files = (.ok report, again) ∧
        ∀ place, again.files.node? place = session.files.node? place := by
  have modules : ((runAll editedConfig).runOn editedCourse).1.toOption.map
      (·.packing.modules) = some [1] := by
    decide +kernel
  have apart : editedConfig.paths.AreApart :=
    ⟨by decide, by decide, by decide⟩
  have wellNamed : editedCourse.WellNamed := by
    apply FileTree.wellNamed_of_nodes
    decide
  have safe : editedCourse.SafeHeaders editedConfig.paths.transcripts := by
    intro name bytes text header _ isFile
    have isName := wellNamed _ name bytes isFile
    have absent : editedCourse.node? (["text"] ++ [name]) = none :=
      node?_editedCourse_of_absent isName (by decide)
    exact absurd (absent.symm.trans isFile) nofun
  have packed : OnlyPacked editedConfig.paths.sets.place editedCourse :=
    .start fun name isName => node?_editedCourse_of_absent isName (by decide)
  rcases Option.map_eq_some_iff.1 modules with ⟨report, isReport, areModules⟩
  have run := Job.runOn_of_toOption isReport
  exact ⟨report, _, run, areModules, runAll_again apart wellNamed safe packed run⟩

end LectureQuiz
