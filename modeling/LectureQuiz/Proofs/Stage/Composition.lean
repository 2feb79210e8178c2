import LectureQuiz.Proofs.FileTree.Way
import LectureQuiz.Proofs.Records
import LectureQuiz.Proofs.Stage.Generate
import LectureQuiz.Proofs.Window
import LectureQuiz.Rule.Course

/-!
# The stages one after the other

Each stage reads what the one before it has written. The bank of a run is the one
that the documents of the raw transcripts give without a file in between.
-/

namespace LectureQuiz

open LectureQuiz.Text

namespace FileTree

/-- The folders of a run can be created, and then nothing is in the way of its
files. -/
structure Admits (tree prepared : FileTree)
    (transcripts segments bank : Path) : Prop where
  created : tree.createAll (transcripts :: segments :: bank.parent?.toList) =
    some prepared
  transcriptsNamed : transcripts.text ≠ ""
  segmentsNamed : segments.text ≠ ""
  noDocument : ∀ name, nameExtension? name = some "md" →
    prepared.node? (transcripts.place ++ [name]) = none
  noStream : ∀ name, nameExtension? name = some "jsonl" →
    prepared.node? (segments.place ++ [name]) = none
  bankFree : ∃ place, prepared.target bank = .ok place ∧
    prepared.node? place ≠ some .folder

/-- The places of the documents, of the streams and of the bank. -/
def IsOutputPlace (transcripts segments bank : Path) (place : Location) : Prop :=
  place = bank.place ∨ ∃ name,
    (nameExtension? name = some "md" ∧ place = transcripts.place ++ [name]) ∨
      (nameExtension? name = some "jsonl" ∧ place = segments.place ++ [name])

/-- A run is admitted where nothing lies in the places of its files and none of its folders
is reached through them, as long as the folders can be created and the bank has a path
that a file can have. -/
theorem admits_of_fresh
    {tree prepared : FileTree} {transcripts segments bank : Path}
    (created : tree.createAll (transcripts :: segments :: bank.parent?.toList) =
      some prepared)
    (transcriptsNamed : transcripts.text ≠ "") (segmentsNamed : segments.text ≠ "")
    (isTarget : ∃ place, prepared.target bank = .ok place)
    (fresh : ∀ place, IsOutputPlace transcripts segments bank place →
      tree.node? place = none ∧
        ∀ folder ∈ transcripts :: segments :: bank.parent?.toList, place ∉ folder.way) :
    tree.Admits prepared transcripts segments bank := by
  have stillFree : ∀ place, IsOutputPlace transcripts segments bank place →
      prepared.node? place = none := by
    intro place isOutput
    rcases fresh place isOutput with ⟨isFree, offWay⟩
    rw [createAll_elsewhere created offWay, isFree]
  refine ⟨created, transcriptsNamed, segmentsNamed, ?_, ?_, ?_⟩
  · intro name hasExtension
    exact stillFree _ (Or.inr ⟨name, Or.inl ⟨hasExtension, rfl⟩⟩)
  · intro name hasExtension
    exact stillFree _ (Or.inr ⟨name, Or.inr ⟨hasExtension, rfl⟩⟩)
  · rcases isTarget with ⟨place, isTarget⟩
    rcases (eq_place_of_target isTarget).1 with rfl
    refine ⟨bank.place, isTarget, ?_⟩
    rw [stillFree bank.place (Or.inl rfl)]
    exact nofun

end FileTree

/-- The segments of the last documents, in the order of the names of their
files. -/
def segmentsOf (bounds : Window.Bounds) (documents : List Document) :
    List Segment :=
  (byFileName "jsonl" documents).flatMap (Document.segments bounds)

/-- The streams of the documents, with their names. -/
def streams (bounds : Window.Bounds) (documents : List Document) :
    List (String × String) :=
  (byFileName "jsonl" documents).map fun document =>
    (document.fileName "jsonl", Records.render (document.segments bounds))

theorem segmentsIn_streams (bounds : Window.Bounds) (documents : List Document) :
    segmentsIn (streams bounds documents) = segmentsOf bounds documents := by
  have readBack (document : Document) :
      (Records.parse (Records.render (document.segments bounds))).records =
        document.segments bounds := by
    rw [Records.parse_render]
  rw [segmentsIn, streams, List.flatMap_map, segmentsOf]
  exact List.flatMap_congr fun document _ => readBack document

section

variable {tree prepared first second middle : FileTree} {index : VideoIndex}
  {raw : List (String × ByteArray)} {bounds : Window.Bounds}
  {placeholders transcripts segments bank : Path} {documents : List Document}

/-- The first created folder takes the documents. -/
theorem FileTree.Admits.accepts_documents
    (admits : tree.Admits prepared transcripts segments bank)
    (created : tree.createFolders transcripts = (.ok (), first))
    (grows : first.Grows prepared)
    (writable : ∀ document ∈ documents, VideoIndex.IsSafeId document.videoId ∧
      transcripts.Fits (document.fileName "md")) :
    first.Accepts transcripts "md" documents := by
  apply accepts_of_createFolders created admits.transcriptsNamed _ writable
  intro name hasExtension
  exact grows.node?_of_none (admits.noDocument name hasExtension)

/-- The second created folder takes the streams. Names of streams and of documents
end differently, so that it may be the first one too. -/
theorem FileTree.Admits.accepts_streams
    {made : FileTree} (admits : tree.Admits prepared transcripts segments bank)
    (created : middle.createFolders segments = (.ok (), made))
    (overlays : made.Overlays second
      (documentWrites transcripts "md" Document.bytes documents))
    (grows : second.Grows prepared)
    (writable : ∀ document ∈ documents, VideoIndex.IsSafeId document.videoId ∧
      segments.Fits (document.fileName "jsonl")) :
    made.Accepts segments "jsonl" (byFileName "md" documents) := by
  apply accepts_of_createFolders created admits.segmentsNamed
  · intro name hasExtension
    have unwritten := @documentWrites_of_extension transcripts "md" Document.bytes
      documents segments.place name "jsonl" isExtension_md (by decide) hasExtension
    rw [overlays.node?_of_none unwritten]
    exact grows.node?_of_none (admits.noStream name hasExtension)
  · intro document member
    exact writable document (mem_of_mem_byFileName member)

/-- The streams are written on the files that hold the documents, and nothing comes
in the way of the bank. -/
theorem runOn_segment_of_documents
    (admits : tree.Admits prepared transcripts segments bank)
    (accepts : first.Accepts transcripts "md" documents)
    (leaves : middle.Overlays first
      (documentWrites transcripts "md" Document.bytes documents))
    (created : first.createFolders segments = (.ok (), second))
    (grows : second.Grows prepared)
    (fits : ∀ document ∈ documents, segments.Fits (document.fileName "jsonl"))
    (normalBody : ∀ document ∈ documents, document.HasNormalBody)
    (inRange : ∀ document ∈ byFileName "md" documents, document.InRange bounds) :
    ∃ report after, (segment bounds transcripts segments).runOn middle =
        (.ok report, after) ∧
      after.files.Supplies segments "jsonl"
        ((streams bounds documents).map fun file => (file.1, file.2.toUTF8)) ∧
      ∃ writes, after.files.Overlays second writes ∧
        ∀ place, writes place ≠ none → prepared.node? place = none := by
  have apart (place : Location) (written : documentWrites transcripts "md"
      Document.bytes documents place ≠ none) : prepared.node? place = none := by
    apply FileTree.absent_of_documentWrites admits.noDocument _ isExtension_md written
    exact fun document member => (accepts.writable document member).1.1
  obtain ⟨made, createdMade, overlays⟩ :=
    leaves.createFolders created fun place written =>
      grows.node?_of_none (apart place written)
  have acceptsStreams := admits.accepts_streams createdMade overlays grows
    fun document member => ⟨(accepts.writable document member).1, fits document member⟩
  have apartStream (place : Location) (written : documentWrites segments "jsonl"
      (Document.stream bounds) (byFileName "md" documents) place ≠ none) :
      prepared.node? place = none := by
    apply FileTree.absent_of_documentWrites admits.noStream _ isExtension_jsonl
      written
    exact fun document member => (acceptsStreams.writable document member).1.1
  obtain ⟨after, yields, leavesStreams⟩ :=
    @yields_segment ⟨middle, []⟩ _ bounds _ _ _
      (accepts.supplies isExtension_md leaves) createdMade acceptsStreams
      (fun document member => normalBody document (mem_of_mem_byFileName member)) inRange
  refine ⟨_, after, yields, ?_, _, leavesStreams.trans overlays, ?_⟩
  · have supplies := acceptsStreams.supplies isExtension_jsonl leavesStreams
    rw [byFileName_byFileName] at supplies
    rw [streams, List.map_map]
    exact supplies
  · intro place written
    cases isStream : documentWrites segments "jsonl" (Document.stream bounds)
        (byFileName "md" documents) place with
    | none =>
        rw [isStream] at written
        exact apart place written
    | some content => exact apartStream place (by rw [isStream]; exact nofun)

/-- The stages succeed on the files that each leaves for the next, and the bank is
the one of the segments of the documents. Only the last document with an id is cut. -/
theorem bank_of_stages
    (rules : RuleSet) (supplies : tree.Supplies placeholders "txt" raw)
    (admits : tree.Admits prepared transcripts segments bank)
    (safe : ∀ entry ∈ index.entries, VideoIndex.IsSafeId entry.videoId)
    (fits : ∀ document ∈ raw.map (rawDocument index),
      transcripts.Fits (document.fileName "md") ∧
        segments.Fits (document.fileName "jsonl"))
    (inRange : ∀ document ∈ byFileName "jsonl" (raw.map (rawDocument index)),
      document.InRange bounds) :
    let drawn := segmentsOf bounds (raw.map (rawDocument index))
    let items := Bank.generate rules drawn
    ∃ ingested afterIngest segmented afterSegment afterGenerate,
      (ingest index placeholders transcripts).runOn tree =
        (.ok ingested, afterIngest) ∧
      (segment bounds transcripts segments).runOn afterIngest.files =
        (.ok segmented, afterSegment) ∧
      (generate rules segments bank).runOn afterSegment.files =
        (.ok ⟨bank, drawn.length, items.length⟩, afterGenerate) ∧
      afterGenerate.files.read bank = .ok (Records.render items).toUTF8 := by
  intro drawn items
  -- The stages create these folders one by one, each over what was written before.
  obtain ⟨first, createdFirst, createdRest⟩ :=
    FileTree.createAll_cons_iff.1 admits.created
  obtain ⟨second, createdSecond, createdAbove⟩ :=
    FileTree.createAll_cons_iff.1 createdRest
  have safeIds := isSafeId_rawDocument supplies safe
  have accepts := admits.accepts_documents createdFirst
    (FileTree.grows_of_createAll createdRest)
    fun document member => ⟨safeIds document member, (fits document member).1⟩
  obtain ⟨afterIngest, ingests, leaves⟩ :=
    @yields_ingest ⟨tree, []⟩ _ _ _ _ _ supplies createdFirst accepts
  have normalBody : ∀ document ∈ raw.map (rawDocument index),
      document.HasNormalBody := by
    intro document member
    obtain ⟨file, _, rfl⟩ := List.mem_map.1 member
    exact Document.exists_isNormal_normalizeChars _
  obtain ⟨segmented, afterSegment, cuts, suppliesStreams, writes, overlays, apart⟩ :=
    runOn_segment_of_documents admits accepts leaves createdSecond
      (FileTree.grows_of_createAll createdAbove)
      (fun document member => (fits document member).2) normalBody
      fun document member => inRange document (mem_byFileName.2 (mem_byFileName.1 member))
  obtain ⟨made, created, overlaysPrepared⟩ := overlays.createAll createdAbove apart
  obtain ⟨place, isTarget, notFolder⟩ := admits.bankFree
  obtain ⟨afterGenerate, generates, isBank⟩ :=
    @yields_generate ⟨afterSegment.files, []⟩ _ _ _ _ _ rules suppliesStreams
      created (overlaysPrepared.target isTarget)
      (overlaysPrepared.node?_ne_folder notFolder)
  rw [segmentsIn_streams] at generates isBank
  exact ⟨_, afterIngest, segmented, afterSegment, afterGenerate, ingests, cuts,
    generates, isBank⟩

end

/-! ## A folder of transcripts -/

/-- A folder `p` with some files, next to which there is nothing. -/
def folderOf (files : List (String × ByteArray))
    (distinct : (files.map Prod.fst).Nodup) : FileTree where
  nodes := (["p"], .folder) :: files.map fun file => (["p", file.1], .file file.2)
  distinct := by
    have places : (files.map fun file => (["p", file.1], Node.file file.2)).map Prod.fst =
        (files.map Prod.fst).map fun name => ["p", name] := by
      rw [List.map_map, List.map_map]
      rfl
    rw [List.map_cons, places]
    refine List.nodup_cons.2 ⟨by simp, distinct.map fun first second same => ?_⟩
    exact (List.cons.inj (List.cons.inj same).2).1

theorem lookup_places (files : List (String × ByteArray)) (name : String) :
    (files.map fun file => (["p", file.1], Node.file file.2)).lookup ["p", name] =
      (files.lookup name).map .file := by
  induction files with
  | nil => rfl
  | cons file rest inductionHypothesis =>
      rw [List.map_cons, List.lookup_cons, List.lookup_cons]
      by_cases same : name = file.1
      · simp [same]
      · have different : (name == file.1) = false := by simpa using same
        simpa [different] using inductionHypothesis

section

variable {files : List (String × ByteArray)} {distinct : (files.map Prod.fst).Nodup}

theorem node?_folderOf (name : String) :
    (folderOf files distinct).node? ["p", name] = (files.lookup name).map .file := by
  have notAnchor : Location.isAnchor ["p", name] = false := by
    simp [Location.isAnchor]
  have isInner : (["p", name] == ["p"]) = false := by simp
  rw [FileTree.node?, notAnchor, if_neg Bool.false_ne_true, folderOf, List.lookup_cons,
    isInner]
  exact lookup_places files name

theorem supplies_folderOf
    (increasing : (files.map Prod.fst).Pairwise (· < ·))
    (named : ∀ file ∈ files, IsName file.1 ∧ (Path.mk "p").Fits file.1)
    (hasExtension : ∀ file ∈ files, nameExtension? file.1 = some "txt") :
    (folderOf files distinct).Supplies ⟨"p"⟩ "txt" files where
  isFolder := by rfl
  holds := by
    refine ⟨increasing, fun name content => ?_⟩
    have place : (Path.mk "p").place ++ [name] = ["p", name] := by rfl
    rw [place, node?_folderOf, Option.map_eq_some_iff, mem_iff_lookup_eq distinct]
    constructor
    · intro found
      exact ⟨hasExtension _ ((mem_iff_lookup_eq distinct).2 found), content, found, rfl⟩
    · intro isFile
      rcases isFile with ⟨_, _, found, same⟩
      rw [found, Node.file.inj same]
  readable := named

end

/-- A folder `p` with one file. -/
def singleFile (name : String) (content : ByteArray) : FileTree :=
  folderOf [(name, content)] (List.nodup_singleton name)

section

variable {name : String} {content : ByteArray}

theorem supplies_singleFile
    (isName : IsName name) (fits : (Path.mk "p").Fits name)
    (hasExtension : nameExtension? name = some "txt") :
    (singleFile name content).Supplies ⟨"p"⟩ "txt" [(name, content)] :=
  supplies_folderOf (List.pairwise_singleton _ _)
    (List.forall_mem_singleton.2 ⟨isName, fits⟩)
    (List.forall_mem_singleton.2 hasExtension)

theorem admits_singleFile :
    (singleFile name content).Admits
      (((singleFile name content).put ["t"] .folder).put ["s"] .folder)
      ⟨"t"⟩ ⟨"s"⟩ ⟨"bank.jsonl"⟩ where
  created := by rfl
  transcriptsNamed := by decide
  segmentsNamed := by decide
  noDocument := fun _ _ => by rfl
  noStream := fun _ _ => by rfl
  bankFree := ⟨["bank.jsonl"], by rfl, nofun⟩

end

/-- Two transcripts that one row of the index stands for. -/
def treeTranscripts : List (String × ByteArray) :=
  [("Trees.txt", "A graph.\n".toUTF8), ("trees.txt", "Every tree is a graph.\n".toUTF8)]

def treeIndex : VideoIndex :=
  .ofEntries [⟨10, "Graphs", "Trees", "https://example.com/v/1", "trees"⟩]

def treeCourse : FileTree :=
  folderOf treeTranscripts (by decide)

theorem admits_treeCourse :
    treeCourse.Admits ((treeCourse.put ["t"] .folder).put ["s"] .folder)
      ⟨"t"⟩ ⟨"s"⟩ ⟨"bank.jsonl"⟩ := by
  have ways : (Path.mk "t" :: Path.mk "s" ::
      (Path.mk "bank.jsonl").parent?.toList).flatMap Path.way =
        [[], ["t"], [], ["s"], [], []] := by
    decide +kernel
  have offWay {place : Location} (isOff : place ∉ [[], ["t"], [], ["s"], [], []]) :
      ∀ folder ∈ Path.mk "t" :: Path.mk "s" :: (Path.mk "bank.jsonl").parent?.toList,
        place ∉ folder.way := by
    intro folder member onWay
    rw [← ways] at isOff
    exact isOff (List.mem_flatMap.2 ⟨folder, member, onWay⟩)
  have inTranscripts : (Path.mk "t").place = ["t"] := by rfl
  have inSegments : (Path.mk "s").place = ["s"] := by rfl
  refine FileTree.admits_of_fresh (by rfl) (by decide) (by decide)
    ⟨["bank.jsonl"], by rfl⟩ fun place isOutput => ?_
  rcases isOutput with rfl | ⟨name, ⟨_, rfl⟩ | ⟨_, rfl⟩⟩
  · exact ⟨by rfl, offWay (by decide +kernel)⟩
  · exact ⟨by rfl, offWay (by simp [inTranscripts])⟩
  · exact ⟨by rfl, offWay (by simp [inSegments])⟩

/-- Of the two transcripts the later one is cut into one segment, for which one rule
fires. -/
theorem bank_of_treeCourse :
    let raw := treeTranscripts
    let prepared := (treeCourse.put ["t"] .folder).put ["s"] .folder
    let documents := raw.map (rawDocument treeIndex)
    let drawn := segmentsOf {} documents
    let items := Bank.generate .course drawn
    treeCourse.Supplies ⟨"p"⟩ "txt" raw ∧
      treeCourse.Admits prepared ⟨"t"⟩ ⟨"s"⟩ ⟨"bank.jsonl"⟩ ∧
      (∀ entry ∈ treeIndex.entries, VideoIndex.IsSafeId entry.videoId) ∧
      (∀ document ∈ documents, (Path.mk "t").Fits (document.fileName "md") ∧
        (Path.mk "s").Fits (document.fileName "jsonl")) ∧
      (∀ document ∈ byFileName "jsonl" documents, document.InRange {}) ∧
      documents.map Document.videoId = ["trees", "trees"] ∧
      drawn.map Segment.text = ["Every tree is a graph."] ∧
      items.map Item.module = [10] ∧
      ∃ ingested afterIngest segmented afterSegment afterGenerate,
        (ingest treeIndex ⟨"p"⟩ ⟨"t"⟩).runOn treeCourse = (.ok ingested, afterIngest) ∧
        (segment {} ⟨"t"⟩ ⟨"s"⟩).runOn afterIngest.files =
          (.ok segmented, afterSegment) ∧
        (generate .course ⟨"s"⟩ ⟨"bank.jsonl"⟩).runOn afterSegment.files =
          (.ok ⟨⟨"bank.jsonl"⟩, drawn.length, items.length⟩, afterGenerate) ∧
        afterGenerate.files.read ⟨"bank.jsonl"⟩ =
          .ok (Records.render items).toUTF8 := by
  intro raw prepared documents drawn items
  have supplies : treeCourse.Supplies ⟨"p"⟩ "txt" raw := by
    refine supplies_folderOf (by decide +kernel) ?_ (by decide +kernel)
    simp only [treeTranscripts, List.forall_mem_cons]
    exact ⟨⟨by decide, by rfl, by decide⟩, ⟨by decide, by rfl, by decide⟩, nofun⟩
  have safe : ∀ entry ∈ treeIndex.entries, VideoIndex.IsSafeId entry.videoId := by
    have entries : treeIndex.entries.map VideoEntry.videoId = ["trees"] := by
      decide +kernel
    intro entry member
    have isId := List.mem_map_of_mem (f := VideoEntry.videoId) member
    rw [entries] at isId
    rw [List.mem_singleton.1 isId]
    exact ⟨by decide, by decide⟩
  have ids : documents.map Document.videoId = ["trees", "trees"] := by decide +kernel
  have fits : ∀ document ∈ documents, (Path.mk "t").Fits (document.fileName "md") ∧
      (Path.mk "s").Fits (document.fileName "jsonl") := by
    intro document member
    have isId := List.mem_map_of_mem (f := Document.videoId) member
    rw [ids] at isId
    have sameId : document.videoId = "trees" := by simpa using isId
    rw [Document.fileName, Document.fileName, sameId]
    exact ⟨⟨by rfl, by decide⟩, ⟨by rfl, by decide⟩⟩
  let later := rawDocument treeIndex ("trees.txt", "Every tree is a graph.\n".toUTF8)
  have onlyLater : byFileName "jsonl" documents = [later] :=
    byFileName_pair (by decide +kernel) "jsonl"
  have inRange : ∀ document ∈ byFileName "jsonl" documents, document.InRange {} := by
    rw [onlyLater]
    refine List.forall_mem_singleton.2 fun _ => ?_
    exact Window.inRange_of_length (by decide +kernel)
  have areDrawn : drawn = later.segments {} := by
    change (byFileName "jsonl" documents).flatMap _ = _
    rw [onlyLater, List.flatMap_singleton]
  have texts : drawn.map Segment.text = ["Every tree is a graph."] := by
    rw [areDrawn]
    decide +kernel
  have modules : items.map Item.module = [10] := by
    change (Bank.generate .course drawn).map Item.module = [10]
    rw [areDrawn]
    decide +kernel
  exact ⟨supplies, admits_treeCourse, safe, fits, inRange, ids, texts, modules,
    bank_of_stages .course supplies admits_treeCourse safe fits inRange⟩

/-- A slug that leaves room for the extension of a document, but not for the one of
a stream. -/
structure IsLongSlug (stem : String) : Prop where
  isSlug : slug stem = stem
  noNull : '\x00' ∉ stem.toList
  long : 249 < stem.utf8ByteSize
  short : stem.utf8ByteSize ≤ 251

namespace IsLongSlug

variable {stem : String} {content : ByteArray}

theorem ne_empty (isLong : IsLongSlug stem) : stem ≠ "" := by
  have long := isLong.long
  rintro rfl
  exact absurd long (by decide)

theorem noSlash (isLong : IsLongSlug stem) : '/' ∉ stem.toList :=
  isLong.isSlug ▸ slash_not_mem_slug stem

theorem fits
    (isLong : IsLongSlug stem) {folder rest : String}
    (plain : '/' ∉ rest.toList ∧ '\x00' ∉ rest.toList ∧ rest.utf8ByteSize ≤ 4)
    (plainAbove : '\x00' ∉ folder.toList ∧ folder.utf8ByteSize = 1) :
    (Path.mk folder).Fits (stem ++ rest) := by
  have short := isLong.short
  have bytes := @String.utf8ByteSize_append stem rest
  have nameBound : FileTree.maxNameBytes = 255 := rfl
  have pathBound : FileTree.maxPathBytes = 4095 := rfl
  apply FileTree.fits_of_bounds
  · simp [isLong.noSlash, plain.1]
  · simp [isLong.ne_empty]
  · simp [isLong.noNull, plain.2.1]
  · exact plainAbove.1
  · omega
  · dsimp only
    omega

theorem splitName_eq (isLong : IsLongSlug stem) :
    splitName (stem ++ ".txt") = (stem, some "txt") := by
  apply splitName_of_toList _ isLong.ne_empty isExtension_txt.noDot
  rw [String.toList_append]
  rfl

theorem videoId_eq (isLong : IsLongSlug stem) :
    (rawDocument .empty (stem ++ ".txt", content)).videoId = stem := by
  have cut : nameStem (stem ++ ".txt") = stem := by
    rw [nameStem, isLong.splitName_eq]
  have resolved : (VideoIndex.empty.resolve stem).1.videoId = stem := by
    simp [VideoIndex.resolve, VideoIndex.get?, VideoIndex.empty,
      VideoIndex.syntheticEntry, isLong.isSlug, isLong.ne_empty]
  rw [videoId_rawDocument, cut, resolved]

theorem fileName_eq (isLong : IsLongSlug stem) (extension : String) :
    (rawDocument .empty (stem ++ ".txt", content)).fileName extension =
      stem ++ ("." ++ extension) := by
  rw [Document.fileName, isLong.videoId_eq, String.append_assoc]

theorem supplies (isLong : IsLongSlug stem) :
    (singleFile (stem ++ ".txt") content).Supplies ⟨"p"⟩ "txt"
      [(stem ++ ".txt", content)] := by
  have isName : IsName (stem ++ ".txt") := by
    have noSlash := isLong.noSlash
    rw [← @videoId_eq stem content isLong] at noSlash
    have isFileName := Document.isName_fileName noSlash isExtension_txt
    rw [isLong.fileName_eq] at isFileName
    exact isFileName
  apply supplies_singleFile isName (isLong.fits (by decide) (by decide))
  rw [nameExtension?, isLong.splitName_eq]

theorem safe (isLong : IsLongSlug stem) :
    VideoIndex.IsSafeId (rawDocument .empty (stem ++ ".txt", content)).videoId := by
  rw [isLong.videoId_eq]
  exact ⟨isLong.ne_empty, isLong.noSlash⟩

theorem accepts (isLong : IsLongSlug stem) :
    ((singleFile (stem ++ ".txt") content).put ["t"] .folder).Accepts ⟨"t"⟩ "md"
      [rawDocument .empty (stem ++ ".txt", content)] := by
  have created : (singleFile (stem ++ ".txt") content).createFolders ⟨"t"⟩ =
      (.ok (), (singleFile (stem ++ ".txt") content).put ["t"] .folder) := by rfl
  apply FileTree.accepts_of_createFolders created (by decide) (fun _ _ => by rfl)
  intro document member
  obtain rfl := List.mem_singleton.1 member
  rw [isLong.fileName_eq]
  exact ⟨isLong.safe, isLong.fits (by decide) (by decide)⟩

/-- The document is written, and its stream is not. -/
theorem not_isOk_segment (isLong : IsLongSlug stem) (bounds : Window.Bounds) :
    ∃ report after, (ingest .empty ⟨"p"⟩ ⟨"t"⟩).runOn
        (singleFile (stem ++ ".txt") content) = (.ok report, after) ∧
      ((segment bounds ⟨"t"⟩ ⟨"s"⟩).runOn after.files).1.isOk = false := by
  obtain ⟨after, yields, overlays⟩ := @yields_ingest
    ⟨singleFile (stem ++ ".txt") content, []⟩ _ _ _ _ _ isLong.supplies (by rfl)
    isLong.accepts
  refine ⟨_, after, yields, ?_⟩
  apply Bool.eq_false_iff.2
  intro isOk
  obtain ⟨report, segmented⟩ := Job.exists_of_isOk isOk
  have suppliesDocument := isLong.accepts.supplies isExtension_md overlays
  rw [byFileName_singleton] at suppliesDocument
  have fits := @fits_of_yields_segment ⟨after.files, []⟩ _ _ _ _ _ _ _
    suppliesDocument (Document.exists_isNormal_normalizeChars _) isLong.safe segmented
  have bytes := fits.2
  have long := isLong.long
  have extensionBytes : ("." ++ "jsonl").utf8ByteSize = 6 := by decide
  have nameBound : FileTree.maxNameBytes = 255 := rfl
  rw [isLong.fileName_eq, String.utf8ByteSize_append] at bytes
  omega

end IsLongSlug

theorem isLongSlug_replicate :
    IsLongSlug (String.ofList (List.replicate 251 'a')) := by
  have chars : (String.ofList (List.replicate 251 'a')).toList =
      List.replicate 251 'a' := String.toList_ofList
  have bytes : (String.ofList (List.replicate 251 'a')).utf8ByteSize = 251 := by
    rw [String.utf8ByteSize_ofList]
    decide +kernel
  constructor
  case isSlug =>
    have isKept : slugChars (List.replicate 251 'a') = List.replicate 251 'a' := by
      decide +kernel
    rw [slug, chars, isKept]
  case noNull =>
    rw [chars]
    decide +kernel
  case long =>
    rw [bytes]
    decide
  case short => rw [bytes]

/-- With the longest name that a raw transcript can have, the stages do not all
succeed. -/
theorem not_isOk_segment_of_longest :
    let name := String.ofList (List.replicate 251 'a') ++ ".txt"
    let tree := singleFile name .empty
    let document := rawDocument .empty (name, .empty)
    tree.Supplies ⟨"p"⟩ "txt" [(name, .empty)] ∧
      (∃ prepared, tree.Admits prepared ⟨"t"⟩ ⟨"s"⟩ ⟨"bank.jsonl"⟩) ∧
      Window.inRange {} document.body.toList = true ∧
      ∃ report after, (ingest .empty ⟨"p"⟩ ⟨"t"⟩).runOn tree = (.ok report, after) ∧
        ((segment {} ⟨"t"⟩ ⟨"s"⟩).runOn after.files).1.isOk = false := by
  intro name tree document
  have short : document.body.toList.length = 1 := by decide +kernel
  refine ⟨isLongSlug_replicate.supplies, ⟨_, admits_singleFile⟩, ?_,
    isLongSlug_replicate.not_isOk_segment {}⟩
  exact Window.inRange_of_length (by rw [short]; decide)

end LectureQuiz
