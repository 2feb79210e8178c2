import LectureQuiz.Config.Reader

namespace LectureQuiz

open Toml

namespace Toml

/-- The value of a list of texts. -/
def ofTexts (texts : List String) : Toml :=
  .array (texts.map .string)

@[simp]
theorem list?_ofTexts (texts : List String) : list? text? (ofTexts texts) = some texts := by
  change (texts.map Toml.string).mapM text? = some texts
  induction texts with
  | nil => rfl
  | cons text texts inductionHypothesis =>
      rw [List.map_cons, List.mapM_cons, inductionHypothesis]
      rfl

@[simp]
theorem word32?_ofWord32 (value : UInt32) :
    word32? (.integer value.toNat) = some value := by
  have small := value.toNat_lt
  rw [word32?, if_pos ⟨Int.natCast_nonneg _, small⟩]
  simp

@[simp]
theorem word64?_ofWord64 (value : UInt64) :
    word64? (.integer value.toNat) = some value := by
  have small := value.toNat_lt
  rw [word64?, if_pos ⟨Int.natCast_nonneg _, small⟩]
  simp

end Toml

@[simp]
theorem Path.ofToml?_text (path : Path) : Path.ofToml? (.string path.text) = some path :=
  rfl

namespace AnswerTemplate

/-- The fields that a template is written with. -/
def fields : AnswerTemplate → Fields Toml
  | .trueFalse answer => [("type", .string "tf"), ("answer", .boolean answer)]
  | .multipleChoice choices correct =>
      [("type", .string "mcq"), ("choices", ofTexts choices),
        ("correct", .integer correct.toNat)]

theorem nodup_names (template : AnswerTemplate) :
    (template.fields.map Prod.fst).Nodup := by
  cases template with
  | trueFalse answer => simp [fields]
  | multipleChoice choices correct => simp [fields]

theorem ofToml?_fields (template : AnswerTemplate) :
    ofToml? (.table template.fields) = some template := by
  cases template with
  | trueFalse answer =>
      simp [ofToml?, fields, ofFields?, Fields.required?, List.lookup_cons, text?, boolean?]
  | multipleChoice choices correct =>
      simp [ofToml?, fields, ofFields?, Fields.required?, List.lookup_cons, text?]

end AnswerTemplate

namespace Rule

/-- The fields that a rule is written with in front of its template. -/
def leadingFields (rule : Rule) : Fields Toml :=
  [("module", .integer rule.module.toNat), ("tag", .string rule.tag),
    ("keywords", ofTexts rule.keywords), ("question", .string rule.question),
    ("explanation", .string rule.explanation), ("tags", ofTexts rule.tags)]

/-- The table that a rule is written as. -/
def toToml (rule : Rule) : Toml :=
  .table (rule.leadingFields ++ [("answer", .table rule.answer.fields)])

theorem nodup_leadingNames (rule : Rule) : (rule.leadingFields.map Prod.fst).Nodup := by
  simp [leadingFields]

theorem answer_not_mem_leadingNames (rule : Rule) :
    "answer" ∉ rule.leadingFields.map Prod.fst := by
  simp [leadingFields]

theorem ofToml?_toToml (rule : Rule) : ofToml? rule.toToml = some rule := by
  simp [ofToml?, toToml, leadingFields, fields?, Fields.required?, Fields.withDefault?,
    List.lookup_cons, text?, AnswerTemplate.ofToml?_fields]

end Rule

namespace Paths

/-- The fields that the paths are written with. -/
def fields (paths : Paths) : Fields Toml :=
  [("index", .string paths.index.text), ("placeholders", .string paths.placeholders.text),
    ("transcripts", .string paths.transcripts.text), ("segments", .string paths.segments.text),
    ("draft_bank", .string paths.draftBank.text)] ++
  (match paths.finalBank with
    | none => []
    | some bank => [("final_bank", .string bank.text)]) ++
  [("qbank", .string paths.sets.text)]

theorem nodup_names (paths : Paths) : (paths.fields.map Prod.fst).Nodup := by
  rw [fields]
  cases paths.finalBank with
  | none => simp
  | some bank => simp

theorem ofToml?_fields (paths : Paths) : ofToml? (.table paths.fields) = some paths := by
  obtain ⟨index, placeholders, transcripts, segments, draftBank, finalBank, sets⟩ := paths
  cases finalBank with
  | none => simp [ofToml?, fields, fields?, Fields.withDefault?, List.lookup_cons]
  | some bank => simp [ofToml?, fields, fields?, Fields.withDefault?, List.lookup_cons]

end Paths

namespace Window.Bounds

/-- The fields that the bounds are written with. -/
def fields (bounds : Bounds) : Fields Toml :=
  [("max_len", .integer bounds.maxLength.toNat), ("min_len", .integer bounds.minLength.toNat)]

theorem nodup_names (bounds : Bounds) : (bounds.fields.map Prod.fst).Nodup := by
  simp [fields]

theorem ofToml?_fields (bounds : Bounds) : ofToml? (.table bounds.fields) = some bounds := by
  simp [ofToml?, fields, fields?, Fields.withDefault?, List.lookup_cons]

end Window.Bounds

namespace Config

/-- The field of the rules, which is not there without rules. -/
def rulesField : List Rule → Fields Toml
  | [] => []
  | rule :: rules => [("rules", .array ((rule :: rules).map Rule.toToml))]

/-- The table that a configuration is written as. -/
def toToml (config : Config) : Toml :=
  .table ([("paths", .table config.paths.fields), ("segmenter", .table config.bounds.fields)] ++
    rulesField config.rules)

theorem list?_rules (rules : List Rule) :
    list? Rule.ofToml? (.array (rules.map Rule.toToml)) = some rules := by
  rw [list?]
  induction rules with
  | nil => rfl
  | cons rule rules inductionHypothesis =>
      rw [List.map_cons, List.mapM_cons, Rule.ofToml?_toToml, inductionHypothesis]
      rfl

theorem ofToml?_toToml (config : Config) : ofToml? config.toToml = some config := by
  obtain ⟨paths, bounds, rules⟩ := config
  cases rules with
  | nil =>
      simp [ofToml?, toToml, rulesField, fields?, Fields.withDefault?, List.lookup_cons,
        Paths.ofToml?_fields, Window.Bounds.ofToml?_fields]
  | cons rule rules =>
      have readsRules := list?_rules (rule :: rules)
      simp only [List.map_cons] at readsRules
      simp [ofToml?, toToml, rulesField, fields?, Fields.withDefault?, List.lookup_cons,
        Paths.ofToml?_fields, Window.Bounds.ofToml?_fields, readsRules]

end Config

end LectureQuiz
