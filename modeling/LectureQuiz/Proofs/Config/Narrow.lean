import Mathlib.Algebra.Group.Nat.Defs
import LectureQuiz.Config.Reader
import LectureQuiz.Proofs.Toml.Range

/-!
# Numbers of loaded configurations

The numbers of a configuration have 64 bits without sign, but those that come from a
document are never that large, because a document has no greater integers than signed ones
of 64 bits. So every number of a configuration that was read can be written again.
-/

namespace LectureQuiz

open Toml

namespace Toml

/-- The fields have no integer of more than 64 bits. -/
def FieldsInRange (fields : Fields Toml) : Prop :=
  ∀ field ∈ fields, field.2.InRange

variable {result : Type} {fields : Fields Toml} {name : String} {read : Toml → Option result}
  {value : Toml} {given : result}

theorem InRange.of_table {entries : Fields Toml} (inRange : (Toml.table entries).InRange) :
    FieldsInRange entries := by
  cases inRange with
  | table inside => exact inside

theorem InRange.of_array {elements : List Toml} (inRange : (Toml.array elements).InRange) :
    ∀ element ∈ elements, element.InRange := by
  cases inRange with
  | array inside => exact inside

theorem fieldsInRange_zip
    {elements : List Toml} (inRange : ∀ element ∈ elements, element.InRange)
    (names : List String) : FieldsInRange (names.zip elements) :=
  fun _ member => inRange _ (List.of_mem_zip member).2

theorem InRange.fields?
    (inRange : value.InRange) {names : List String}
    (reads : value.fields? names = some fields) : FieldsInRange fields := by
  unfold Toml.fields? at reads
  split at reads
  · exact Option.some.inj reads ▸ inRange.of_table
  · exact Option.some.inj reads ▸ fieldsInRange_zip inRange.of_array names
  · exact Option.some.inj reads ▸ List.forall_mem_nil _
  · exact absurd reads nofun

theorem inRange_of_lookup
    (inRange : FieldsInRange fields) (found : fields.lookup name = some value) :
    value.InRange := by
  obtain ⟨front, back, entries, _⟩ := List.lookup_eq_some_iff.1 found
  exact inRange (name, value) (by simp [entries])

theorem exists_of_required?
    (inRange : FieldsInRange fields) (reads : Fields.required? fields name read = some given) :
    ∃ value, value.InRange ∧ read value = some given := by
  rw [Fields.required?, Option.bind_eq_bind, Option.bind_eq_some_iff] at reads
  obtain ⟨value, found, reads⟩ := reads
  exact ⟨value, inRange_of_lookup inRange found, reads⟩

theorem exists_of_withDefault?
    {default : result} (inRange : FieldsInRange fields)
    (reads : Fields.withDefault? fields name default read = some given) :
    given = default ∨ ∃ value, value.InRange ∧ read value = some given := by
  rw [Fields.withDefault?] at reads
  split at reads
  · exact Or.inl (Option.some.inj reads).symm
  · rename_i value found
    exact Or.inr ⟨value, inRange_of_lookup inRange found, reads⟩

theorem exists_of_list?
    {given : List result} (inRange : value.InRange)
    (reads : list? read value = some given) :
    ∀ item ∈ given, ∃ element : Toml, element.InRange ∧ read element = some item := by
  unfold list? at reads
  split at reads
  · rename_i elements
    have elementsInRange := inRange.of_array
    clear inRange
    induction elements generalizing given with
    | nil => exact Option.some.inj reads ▸ List.forall_mem_nil _
    | cons element elements inductionHypothesis =>
        rw [List.forall_mem_cons] at elementsInRange
        simp only [List.mapM_cons, Option.bind_eq_bind, Option.bind_eq_some_iff,
          Option.pure_def, Option.some.injEq] at reads
        obtain ⟨first, readsFirst, others, readsOthers, rfl⟩ := reads
        exact List.forall_mem_cons.2 ⟨⟨element, elementsInRange.1, readsFirst⟩,
          inductionHypothesis readsOthers elementsInRange.2⟩
  · exact absurd reads nofun

theorem toNat_lt_of_word64?
    {number : UInt64} (inRange : value.InRange) (reads : word64? value = some number) :
    number.toNat < 2 ^ 63 := by
  cases inRange with
  | @integer value least most =>
      rw [word64?, Option.ite_none_right_eq_some, Option.some.injEq] at reads
      obtain ⟨⟨_, small⟩, rfl⟩ := reads
      have greatest : Int64.maxValue.toInt = 2 ^ 63 - 1 := rfl
      have same : value.toNat.toUInt64.toNat = value.toNat := Nat.mod_eq_of_lt small
      omega
  | _ => exact absurd reads nofun

end Toml

/-- The number of the correct choice can be written. -/
def AnswerTemplate.IsNarrow (template : AnswerTemplate) : Prop :=
  template.correctIndex.toNat < 2 ^ 63

theorem AnswerTemplate.isNarrow_trueFalse (answer : Bool) : (trueFalse answer).IsNarrow := by
  rw [IsNarrow, correctIndex]
  cases answer with
  | false => decide
  | true => decide

theorem AnswerTemplate.isNarrow_ofFields?
    {name : String} {fieldsOf : List String → Option (Fields Toml)} {template : AnswerTemplate}
    (inRange : ∀ {names fields}, fieldsOf names = some fields → FieldsInRange fields)
    (reads : ofFields? name fieldsOf = some template) : template.IsNarrow := by
  rw [ofFields?] at reads
  split at reads
  · simp only [Option.bind_eq_bind, Option.bind_eq_some_iff, Option.pure_def,
      Option.some.injEq] at reads
    obtain ⟨_, _, answer, _, rfl⟩ := reads
    exact isNarrow_trueFalse answer
  · split at reads
    · simp only [Option.bind_eq_bind, Option.bind_eq_some_iff, Option.pure_def,
        Option.some.injEq] at reads
      obtain ⟨fields, given, _, _, correct, readsCorrect, rfl⟩ := reads
      obtain ⟨_, correctInRange, readsCorrect⟩ :=
        exists_of_required? (inRange given) readsCorrect
      exact toNat_lt_of_word64? correctInRange readsCorrect
    · exact absurd reads nofun

theorem AnswerTemplate.isNarrow_ofToml?
    {value : Toml} {template : AnswerTemplate} (inRange : value.InRange)
    (reads : ofToml? value = some template) : template.IsNarrow := by
  unfold ofToml? at reads
  split at reads
  · simp only [Option.bind_eq_bind, Option.bind_eq_some_iff] at reads
    obtain ⟨_, _, reads⟩ := reads
    refine isNarrow_ofFields? ?_ reads
    intro names fields given
    exact Option.some.inj given ▸ inRange.of_table
  · simp only [Option.bind_eq_bind, Option.bind_eq_some_iff] at reads
    obtain ⟨_, _, reads⟩ := reads
    refine isNarrow_ofFields? ?_ reads
    intro names fields given
    rw [Option.ite_none_right_eq_some, Option.some.injEq] at given
    obtain ⟨_, rfl⟩ := given
    exact fieldsInRange_zip (List.forall_mem_cons.1 inRange.of_array).2 names
  · exact absurd reads nofun

theorem Rule.isNarrow_ofToml?
    {value : Toml} {rule : Rule} (inRange : value.InRange) (reads : ofToml? value = some rule) :
    rule.answer.IsNarrow := by
  simp only [ofToml?, Option.bind_eq_bind, Option.bind_eq_some_iff, Option.pure_def,
    Option.some.injEq] at reads
  obtain ⟨fields, given, _, _, _, _, _, _, _, _, answer, readsAnswer, _, _, _, _, rfl⟩ := reads
  obtain ⟨_, answerInRange, readsAnswer⟩ :=
    exists_of_required? (inRange.fields? given) readsAnswer
  exact AnswerTemplate.isNarrow_ofToml? answerInRange readsAnswer

/-- The bounds can be written. -/
structure Window.Bounds.IsNarrow (bounds : Bounds) : Prop where
  maxLength : bounds.maxLength.toNat < 2 ^ 63
  minLength : bounds.minLength.toNat < 2 ^ 63

theorem Window.Bounds.isNarrow_default : ({} : Bounds).IsNarrow :=
  ⟨of_decide_eq_true rfl, of_decide_eq_true rfl⟩

theorem Window.Bounds.isNarrow_ofToml?
    {value : Toml} {bounds : Bounds} (inRange : value.InRange)
    (reads : ofToml? value = some bounds) : bounds.IsNarrow := by
  simp only [ofToml?, Option.bind_eq_bind, Option.bind_eq_some_iff, Option.pure_def,
    Option.some.injEq] at reads
  obtain ⟨fields, given, maxLength, readsMax, minLength, readsMin, rfl⟩ := reads
  have fieldsInRange := inRange.fields? given
  constructor
  · rcases exists_of_withDefault? fieldsInRange readsMax with rfl | ⟨_, isInRange, reads⟩
    · exact isNarrow_default.maxLength
    · exact toNat_lt_of_word64? isInRange reads
  · rcases exists_of_withDefault? fieldsInRange readsMin with rfl | ⟨_, isInRange, reads⟩
    · exact isNarrow_default.minLength
    · exact toNat_lt_of_word64? isInRange reads

namespace Config

/-- Every number of the configuration can be written. -/
structure IsNarrow (config : Config) : Prop where
  bounds : config.bounds.IsNarrow
  rules : ∀ rule ∈ config.rules, rule.answer.IsNarrow

theorem isNarrow_ofToml?
    {value : Toml} {config : Config} (inRange : value.InRange)
    (reads : ofToml? value = some config) : config.IsNarrow := by
  simp only [ofToml?, Option.bind_eq_bind, Option.bind_eq_some_iff, Option.pure_def,
    Option.some.injEq] at reads
  obtain ⟨fields, given, _, _, bounds, readsBounds, rules, readsRules, rfl⟩ := reads
  have fieldsInRange := inRange.fields? given
  constructor
  · rcases exists_of_withDefault? fieldsInRange readsBounds with rfl | ⟨_, isInRange, reads⟩
    · exact Window.Bounds.isNarrow_default
    · exact Window.Bounds.isNarrow_ofToml? isInRange reads
  · rcases exists_of_withDefault? fieldsInRange readsRules with rfl | ⟨_, isInRange, reads⟩
    · exact List.forall_mem_nil _
    · intro rule member
      obtain ⟨_, elementInRange, readsRule⟩ := exists_of_list? isInRange reads rule member
      exact Rule.isNarrow_ofToml? elementInRange readsRule

theorem isNarrow_parse?
    {content : String} {config : Config} (parsed : parse? content = some config) :
    config.IsNarrow := by
  rw [parse?, Option.bind_eq_bind, Option.bind_eq_some_iff] at parsed
  obtain ⟨value, parsed, reads⟩ := parsed
  exact isNarrow_ofToml? (parse?_inRange parsed) reads

end Config

end LectureQuiz
