import LectureQuiz.Proofs.Job
import LectureQuiz.Proofs.Records
import LectureQuiz.Proofs.Records.Lines
import LectureQuiz.QuizSet.Pack

namespace LectureQuiz

open LectureQuiz.Text

/-- The items of a text that can be used. -/
def usableItems (text : String) : List Item :=
  (Records.parse text : Records Item).records.filter Item.isValid

/-- Every one of the files holds the text at the same position. -/
def HoldsTexts (files : FileTree) (paths : List Path) (texts : List String) : Prop :=
  List.Forall₂ (fun path text => files.read path = .ok text.toUTF8) paths texts

theorem yields_mapM_readRecords
    {files : FileTree} {paths : List Path} {texts : List String}
    (holds : HoldsTexts files paths texts) :
    (paths.mapM (Job.readRecords Item)).Yields ⟨files, []⟩
      (texts.map fun text => (Records.parse text).records) ⟨files, []⟩ := by
  induction holds with
  | nil => exact Job.yields_mapM_nil.2 ⟨rfl, rfl⟩
  | cons isRead _ inductionHypothesis =>
      refine Job.yields_mapM_cons.2 ⟨_, _, _, ?_, inductionHypothesis, rfl⟩
      exact Job.yields_readRecords.2 ⟨⟨_, _, isRead, text?_toUTF8 _, rfl⟩, rfl⟩

theorem runOn_readBanks_of_texts
    {files : FileTree} {paths : List Path} {texts : List String}
    (holds : HoldsTexts files paths texts) :
    (readBanks paths).runOn files = (.ok (texts.flatMap usableItems), ⟨files, []⟩) := by
  have usable : (texts.map fun text => (Records.parse text).records).flatten.filter
      Item.isValid = texts.flatMap usableItems := by
    rw [← List.flatMap_def, List.filter_flatMap]
    rfl
  apply Job.yields_iff_runOn.1
  rw [← usable, readBanks, Job.yields_bind]
  exact ⟨_, _, yields_mapM_readRecords holds, Job.yields_pure.2 ⟨rfl, rfl⟩⟩

/-- The text is cut into the parts between two lines. The line break at a cut may be left
out. -/
inductive IsCutInto : String → List String → Prop
  | whole (text : String) : IsCutInto text [text]
  | next {first rest : String} {parts : List String}
      (between : Records.EndsLine first.toList ∨ Records.StartsWithBreak rest.toList)
      (others : IsCutInto rest parts) : IsCutInto (first ++ rest) (first :: parts)
  | apart {first ending rest : String} {parts : List String}
      (isBreak : ending = "\n" ∨ ending = "\r\n")
      (others : IsCutInto rest parts) : IsCutInto (first ++ ending ++ rest) (first :: parts)

theorem usableItems_eq_append
    {whole first second : String}
    (contents : Records.contentLines whole =
      Records.contentLines first ++ Records.contentLines second) :
    usableItems whole = usableItems first ++ usableItems second := by
  rw [usableItems, Records.parse_eq_append contents]
  exact List.filter_append _ _

theorem usableItems_of_isCutInto
    {text : String} {parts : List String} (isCut : IsCutInto text parts) :
    usableItems text = parts.flatMap usableItems := by
  induction isCut with
  | whole text => rw [List.flatMap_singleton]
  | next between others inductionHypothesis =>
      rw [usableItems_eq_append (Records.contentLines_append between), inductionHypothesis,
        List.flatMap_cons]
  | apart isBreak others inductionHypothesis =>
      rw [usableItems_eq_append (Records.contentLines_append_break isBreak _ _),
        inductionHypothesis, List.flatMap_cons]

/-- Every line of a text stands on its own. The records of joined texts are those of both,
every line that is not blank is a record or is passed over, and a line may be put in
another's place without any effect on the rest. So the items of a bank are also read from
several files that it is cut into. -/
theorem Records.isolates_lines (alpha : Type) [Record alpha] :
    (∀ first second : String, (parse (first ++ "\n" ++ second) : Records alpha) =
      ⟨(parse first : Records alpha).records ++ (parse second : Records alpha).records,
        (parse first : Records alpha).skipped + (parse second : Records alpha).skipped⟩) ∧
    (∀ content : String,
      (parse content : Records alpha).records.length + (parse content : Records alpha).skipped =
        (lines content.toList).countP fun line => trim line ≠ []) ∧
    (∀ front line back : String, EndsLine front.toList → '\n' ∉ line.toList →
      StartsWithBreak back.toList →
      (parse (front ++ line ++ back) : Records alpha) =
        parse front ++ ofLine line.toList ++ parse back) ∧
    ∀ (files others : FileTree) (bank : Path) (paths : List Path) (text : String)
      (parts : List String), IsCutInto text parts → files.read bank = .ok text.toUTF8 →
      HoldsTexts others paths parts →
      (readBanks [bank]).runOn files = (.ok (usableItems text), ⟨files, []⟩) ∧
        (readBanks paths).runOn others = (.ok (usableItems text), ⟨others, []⟩) := by
  refine ⟨fun first second => ?_, fun content => ?_, ?_, ?_⟩
  · exact parse_eq_append (contentLines_append_break (Or.inl rfl) first second)
  · rw [length_records_add_skipped, contentLines, ← List.countP_eq_length_filter,
      List.countP_map]
    rfl
  · intro front line back ends single starts
    have withLine : contentLines (front ++ line) = contentLines front ++ contentLines line :=
      contentLines_append (Or.inl ends)
    have withBack : contentLines (front ++ line ++ back) =
        contentLines (front ++ line) ++ contentLines back :=
      contentLines_append (Or.inr starts)
    have ofLine := @parse_of_line alpha _ _ single
    rw [String.ofList_toList] at ofLine
    rw [parse_eq_append withBack, parse_eq_append withLine, ofLine]
  · intro files others bank paths text parts isCut isRead holdsParts
    have whole := runOn_readBanks_of_texts (.cons isRead .nil)
    rw [List.flatMap_singleton] at whole
    have cut := runOn_readBanks_of_texts holdsParts
    rw [← usableItems_of_isCutInto isCut] at cut
    exact ⟨whole, cut⟩

/-- An item that can be used. -/
def oddItem (id : String) : Item :=
  ⟨id, 6, .trueFalse, "Is one odd?", trueFalseChoices, 0, "", .empty, .none⟩

/-- The line of the item, with its line feed. -/
def oddLine (id : String) : String :=
  Records.render [oddItem id]

/-- Two items, and a line between them that is none. -/
def oddBank : String :=
  oddLine "a" ++ ("oops" ++ "\r\n" ++ oddLine "b")

def oddBankFiles : FileTree where
  nodes := [(["bank.jsonl"], .file oddBank.toUTF8)]
  distinct := by simp

/-- The bank in three files. -/
def oddPartFiles : FileTree where
  nodes := [(["1.jsonl"], .file (oddLine "a").toUTF8), (["2.jsonl"], .file "oops".toUTF8),
    (["3.jsonl"], .file (oddLine "b").toUTF8)]
  distinct := by simp

theorem endsLine_oddLine (id : String) : Records.EndsLine (oddLine id).toList := by
  refine Or.inr ?_
  rw [oddLine, Records.render_toList, List.flatMap_singleton, Records.encodeLine,
    List.getLast?_concat]

theorem isCutInto_oddBank : IsCutInto oddBank [oddLine "a", "oops", oddLine "b"] :=
  .next (Or.inl (endsLine_oddLine "a")) (.apart (Or.inr rfl) (.whole _))

theorem usableItems_oddBank : usableItems oddBank = [oddItem "a", oddItem "b"] := by
  have usable (id : String) (valid : (oddItem id).isValid = true) :
      usableItems (oddLine id) = [oddItem id] := by
    rw [usableItems, oddLine, Records.parse_render, List.filter_singleton, valid]
    rfl
  have oops : usableItems "oops" = [] := by decide +kernel
  rw [usableItems_of_isCutInto isCutInto_oddBank, List.flatMap_cons, List.flatMap_cons,
    List.flatMap_singleton, usable "a" (by decide), usable "b" (by decide), oops]
  rfl

theorem Records.isolates_lines_of_oddBank :
    (parse (oddLine "a" ++ "oops" ++ ("\r\n" ++ oddLine "b")) : Records Item) =
        parse (oddLine "a") ++ ⟨[], 1⟩ ++ parse ("\r\n" ++ oddLine "b") ∧
      IsCutInto oddBank [oddLine "a", "oops", oddLine "b"] ∧
      (readBanks [⟨"bank.jsonl"⟩]).runOn oddBankFiles =
        (.ok [oddItem "a", oddItem "b"], ⟨oddBankFiles, []⟩) ∧
      (readBanks [⟨"1.jsonl"⟩, ⟨"2.jsonl"⟩, ⟨"3.jsonl"⟩]).runOn oddPartFiles =
        (.ok [oddItem "a", oddItem "b"], ⟨oddPartFiles, []⟩) := by
  obtain ⟨_, _, replaced, cut⟩ := isolates_lines Item
  have single : '\n' ∉ "oops".toList := by decide +kernel
  have starts : StartsWithBreak ("\r\n" ++ oddLine "b").toList := by
    refine Or.inr (Or.inr ?_)
    rw [String.toList_append]
    exact List.prefix_append _ _
  have isRead : oddBankFiles.read ⟨"bank.jsonl"⟩ = .ok oddBank.toUTF8 := rfl
  have areRead : HoldsTexts oddPartFiles [⟨"1.jsonl"⟩, ⟨"2.jsonl"⟩, ⟨"3.jsonl"⟩]
      [oddLine "a", "oops", oddLine "b"] :=
    .cons rfl (.cons rfl (.cons rfl .nil))
  obtain ⟨whole, parts⟩ := cut _ _ _ _ _ _ isCutInto_oddBank isRead areRead
  rw [usableItems_oddBank] at whole parts
  exact ⟨replaced _ _ _ (endsLine_oddLine "a") single starts, isCutInto_oddBank, whole, parts⟩

end LectureQuiz
