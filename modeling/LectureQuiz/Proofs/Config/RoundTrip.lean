import LectureQuiz.Config.Writer
import LectureQuiz.Proofs.Config.Fields
import LectureQuiz.Proofs.Config.Narrow
import LectureQuiz.Proofs.Toml.Assembly
import LectureQuiz.Proofs.Toml.Lines

namespace LectureQuiz

open Toml

variable {next : List Char} {later : List Statement}

namespace Toml.IsDocument

variable {key : String}

theorem textLine
    (isBare : IsBareKey key) (value : String) (isDocument : IsDocument next later) :
    IsDocument (textLine key value ++ next) (.assign ⟨[], key⟩ (.string value) :: later) :=
  isDocument.assignment isBare (isWritten_text value)

theorem numberLine
    (isBare : IsBareKey key) {value : Nat} (small : value < 2 ^ 63)
    (isDocument : IsDocument next later) :
    IsDocument (numberLine key value ++ next)
      (.assign ⟨[], key⟩ (.integer value) :: later) :=
  isDocument.assignment isBare (isWritten_number small)

theorem textsLines
    (isBare : IsBareKey key) (values : List String) (isDocument : IsDocument next later) :
    IsDocument (textsLines key values ++ next)
      (.assign ⟨[], key⟩ (ofTexts values) :: later) :=
  isDocument.assignment isBare (isWritten_texts values)

end Toml.IsDocument

theorem Paths.isDocument (paths : Paths) (isDocument : IsDocument next later) :
    IsDocument (paths.tomlLines ++ next)
      (.openTable ⟨[], "paths"⟩ :: (assignments paths.fields ++ later)) := by
  have front {lines : List Char} {rest : List Statement} (isDocument : IsDocument lines rest) :=
    IsDocument.openTable (by decide : IsBareKey "paths") <|
    IsDocument.textLine (by decide : IsBareKey "index") paths.index.text <|
    IsDocument.textLine (by decide : IsBareKey "placeholders") paths.placeholders.text <|
    IsDocument.textLine (by decide : IsBareKey "transcripts") paths.transcripts.text <|
    IsDocument.textLine (by decide : IsBareKey "segments") paths.segments.text <|
    IsDocument.textLine (by decide : IsBareKey "draft_bank") paths.draftBank.text isDocument
  have last := isDocument.textLine (by decide : IsBareKey "qbank") paths.sets.text
  rw [tomlLines, fields]
  cases paths.finalBank with
  | none =>
      simp only [List.append_assoc, List.nil_append]
      exact front last
  | some bank =>
      simp only [List.append_assoc]
      exact front (last.textLine (by decide : IsBareKey "final_bank") bank.text)

theorem Window.Bounds.isDocument
    {bounds : Bounds} (narrow : bounds.IsNarrow) (isDocument : IsDocument next later) :
    IsDocument (bounds.tomlLines ++ next)
      (.openTable ⟨[], "segmenter"⟩ :: (assignments bounds.fields ++ later)) := by
  rw [tomlLines, fields]
  simp only [List.append_assoc]
  exact IsDocument.openTable (by decide) <|
    IsDocument.numberLine (by decide) narrow.maxLength <|
    IsDocument.numberLine (by decide) narrow.minLength isDocument

theorem AnswerTemplate.isDocument
    {template : AnswerTemplate} (narrow : template.IsNarrow)
    (isDocument : IsDocument next later) :
    IsDocument (template.tomlLines ++ next) (assignments template.fields ++ later) := by
  cases template with
  | trueFalse answer =>
      rw [tomlLines, fields, List.append_assoc]
      exact IsDocument.textLine (by decide) "tf" <|
        isDocument.assignment (by decide) (isWritten_boolean answer)
  | multipleChoice choices correct =>
      rw [tomlLines, fields]
      simp only [List.append_assoc]
      exact IsDocument.textLine (by decide) "mcq" <|
        IsDocument.textsLines (by decide) choices <|
        IsDocument.numberLine (by decide) narrow isDocument

/-- The statements in the lines of a rule. -/
def Rule.statements (rule : Rule) : List Statement :=
  elementStatements "rules" "answer" rule.leadingFields rule.answer.fields

theorem Rule.isDocument
    {rule : Rule} (narrow : rule.answer.IsNarrow) (isDocument : IsDocument next later) :
    IsDocument (rule.tomlLines ++ next) (rule.statements ++ later) := by
  have small : rule.module.toNat < 2 ^ 63 := rule.module.toNat_lt.trans (by decide)
  have answer := (AnswerTemplate.isDocument narrow isDocument).openInnerTable
    (by decide : IsBareKey "rules") (by decide : IsBareKey "answer")
  rw [tomlLines, Rule.statements, elementStatements, leadingFields]
  simp only [List.append_assoc, List.cons_append]
  exact IsDocument.openElement (by decide) <|
    IsDocument.numberLine (by decide) small <|
    IsDocument.textLine (by decide) rule.tag <|
    IsDocument.textsLines (by decide) rule.keywords <|
    IsDocument.textLine (by decide) rule.question <|
    IsDocument.textLine (by decide) rule.explanation <|
    IsDocument.textsLines (by decide) rule.tags <|
    IsDocument.blank answer

namespace Config

variable {config : Config}

theorem isDocument_rules
    {rules : List Rule} (narrow : ∀ rule ∈ rules, rule.answer.IsNarrow)
    (isDocument : IsDocument next later) :
    IsDocument ((rules.flatMap fun rule => '\n' :: rule.tomlLines) ++ next)
      (rules.flatMap Rule.statements ++ later) := by
  induction rules with
  | nil => exact isDocument
  | cons rule rules inductionHypothesis =>
      rw [List.forall_mem_cons] at narrow
      simp only [List.flatMap_cons, List.append_assoc, List.cons_append]
      exact (Rule.isDocument narrow.1 (inductionHypothesis narrow.2)).blank

/-- The statements in the lines of a configuration. -/
def statements (config : Config) : List Statement :=
  (.openTable ⟨[], "paths"⟩ :: assignments config.paths.fields) ++
    ((.openTable ⟨[], "segmenter"⟩ :: assignments config.bounds.fields) ++
      config.rules.flatMap Rule.statements)

/-- Blank lines may follow a configuration. -/
theorem isDocument_render (narrow : config.IsNarrow) (trailer : List Char)
    (blank : IsDocument trailer []) :
    IsDocument (config.render.toList ++ trailer) config.statements := by
  have rules := isDocument_rules narrow.rules blank
  have bounds := Window.Bounds.isDocument narrow.bounds rules
  have document := Paths.isDocument config.paths bounds.blank
  rw [render, String.toList_ofList, statements]
  simpa using document

theorem finishEntries_rules (rules : List Rule) :
    finishEntries (tablesEntry "rules" (rules.map fun rule =>
      elementEntries "answer" rule.leadingFields rule.answer.fields)) = rulesField rules := by
  cases rules with
  | nil => rfl
  | cons rule rules =>
      have finished := finishElements_map
        (fun rule : Rule => elementEntries "answer" rule.leadingFields rule.answer.fields)
        (rule :: rules)
      simp only [finishEntries_elementEntries] at finished
      rw [List.map_cons] at finished
      rw [List.map_cons, tablesEntry, finishEntries, Draft.finish, finished]
      rfl

/-- The lines of a configuration assemble its table. -/
theorem assemble?_statements (config : Config) :
    assemble? config.statements = some config.toToml := by
  have paths : (.openTable ⟨[], "paths"⟩ :: assignments config.paths.fields).foldlM
        Assembly.add? Assembly.start =
      some ⟨⟨.header, [("paths", .table .header (valueEntries config.paths.fields))]⟩,
        ["paths"]⟩ :=
    foldlM_table rfl config.paths.nodup_names []
  have bounds : (.openTable ⟨[], "segmenter"⟩ :: assignments config.bounds.fields).foldlM
        Assembly.add? ⟨⟨.header, [("paths", .table .header (valueEntries config.paths.fields))]⟩,
          ["paths"]⟩ =
      some ⟨⟨.header, [("paths", .table .header (valueEntries config.paths.fields)),
        ("segmenter", .table .header (valueEntries config.bounds.fields))]⟩, ["segmenter"]⟩ :=
    foldlM_table rfl config.bounds.nodup_names ["paths"]
  have fresh : ([("paths", .table .header (valueEntries config.paths.fields)),
      ("segmenter", .table .header (valueEntries config.bounds.fields))] : Entries).lookup
        "rules" = none := rfl
  obtain ⟨after, rules⟩ := foldlM_elements fresh Rule.nodup_leadingNames
    Rule.answer_not_mem_leadingNames (fun rule => rule.answer.nodup_names) config.rules
    ["segmenter"]
  have all : config.statements.foldlM Assembly.add? Assembly.start = _ :=
    foldlM_append_of paths (foldlM_append_of bounds rules)
  rw [assemble?, all, Option.bind_eq_bind, Option.bind_some, finishEntries_append,
    finishEntries_rules]
  simp [finishEntries, Draft.finish, finishEntries_valueEntries, toToml]

theorem head?_render (config : Config) (trailer : List Char) :
    (config.render.toList ++ trailer).head? = some '[' := by
  rw [render, String.toList_ofList, Paths.tomlLines]
  simp [headerLine]

/-- What is written for a configuration is read back, also with blank lines behind it. -/
theorem parse?_render
    (narrow : config.IsNarrow) {trailer : String} (blank : IsDocument trailer.toList []) :
    parse? (config.render ++ trailer) = some config := by
  have isDocument := isDocument_render narrow trailer.toList blank
  have unmarked : (config.render.toList ++ trailer.toList).head? ≠ some '\uFEFF' := by
    rw [head?_render]
    decide
  rw [← String.toList_append] at isDocument unmarked
  have parsed := parse?_of_isDocument isDocument unmarked (assemble?_statements config)
  rw [parse?, parsed, Option.bind_eq_bind, Option.bind_some, ofToml?_toToml]

end Config

end LectureQuiz
