import Mathlib.Data.Option.Basic
import LectureQuiz.Toml.Reader

/-!
# Integers of 64 bits

Reading a document gives no integer that has more than 64 bits. The reader refuses such an
integer where it stands, and assembling the tables only moves values to their places.
-/

namespace LectureQuiz.Toml

open LectureQuiz.Text

/-- Every integer in the value has 64 bits. -/
inductive InRange : Toml → Prop
  | string (text : String) : InRange (.string text)
  | integer {value : Int} :
      Int64.minValue.toInt ≤ value → value ≤ Int64.maxValue.toInt → InRange (.integer value)
  | float (spelling : String) : InRange (.float spelling)
  | boolean (value : Bool) : InRange (.boolean value)
  | date (spelling : String) : InRange (.date spelling)
  | array {elements : List Toml} :
      (∀ element ∈ elements, InRange element) → InRange (.array elements)
  | table {entries : List (String × Toml)} :
      (∀ entry ∈ entries, InRange entry.2) → InRange (.table entries)

/-- Every integer in the draft has 64 bits. -/
inductive Draft.InRange : Draft → Prop
  | value {value : Toml} : value.InRange → Draft.InRange (.value value)
  | table {origin : Origin} {entries : List (String × Draft)} :
      (∀ entry ∈ entries, Draft.InRange entry.2) → Draft.InRange (.table origin entries)
  | tables {elements : List (List (String × Draft))} :
      (∀ entries ∈ elements, ∀ entry ∈ entries, Draft.InRange entry.2) →
        Draft.InRange (.tables elements)

theorem Draft.InRange.of_table
    {origin : Origin} {entries : List (String × Draft)}
    (inRange : (Draft.table origin entries).InRange) : ∀ entry ∈ entries, entry.2.InRange := by
  cases inRange with
  | table inside => exact inside

theorem Draft.InRange.of_tables
    {elements : List (List (String × Draft))} (inRange : (Draft.tables elements).InRange) :
    ∀ entries ∈ elements, ∀ entry ∈ entries, entry.2.InRange := by
  cases inRange with
  | tables inside => exact inside

/-- Every integer in the table under construction has 64 bits. -/
def DraftTable.InRange (table : DraftTable) : Prop :=
  ∀ entry ∈ table.entries, entry.2.InRange

mutual

theorem Draft.InRange.finish : ∀ {draft : Draft}, draft.InRange → draft.finish.InRange
  | .value _, .value inRange => inRange
  | .table _ entries, .table inRange => .table (finishEntries_inRange entries inRange)
  | .tables elements, .tables inRange => .array (finishElements_inRange elements inRange)

theorem finishEntries_inRange :
    ∀ entries : List (String × Draft), (∀ entry ∈ entries, entry.2.InRange) →
      ∀ entry ∈ finishEntries entries, entry.2.InRange
  | [], _ => List.forall_mem_nil _
  | (_, _) :: rest, inRange =>
      List.forall_mem_cons.2 ⟨(inRange _ List.mem_cons_self).finish,
        finishEntries_inRange rest fun entry member =>
          inRange entry (List.mem_cons_of_mem _ member)⟩

theorem finishElements_inRange :
    ∀ elements : List (List (String × Draft)),
      (∀ entries ∈ elements, ∀ entry ∈ entries, entry.2.InRange) →
        ∀ element ∈ finishElements elements, element.InRange
  | [], _ => List.forall_mem_nil _
  | entries :: rest, inRange =>
      List.forall_mem_cons.2
        ⟨.table (finishEntries_inRange entries (inRange entries List.mem_cons_self)),
          finishElements_inRange rest fun entries member =>
            inRange entries (List.mem_cons_of_mem _ member)⟩

end

namespace DraftTable

variable {table changed : DraftTable} {key : String} {draft : Draft} {path : List String}

theorem InRange.find? (inRange : table.InRange) (found : table.find? key = some draft) :
    draft.InRange := by
  obtain ⟨front, back, entries, _⟩ := List.lookup_eq_some_iff.1 found
  exact inRange (key, draft) (by simp [entries])

theorem InRange.set (inRange : table.InRange) (draftInRange : draft.InRange) :
    (table.set key draft).InRange := by
  rw [DraftTable.set]
  split
  · intro entry member
    obtain ⟨old, isOld, rfl⟩ := List.mem_map.1 member
    split
    · exact draftInRange
    · exact inRange old isOld
  · exact List.forall_mem_append.2 ⟨inRange, List.forall_mem_singleton.2 draftInRange⟩

/-- Changing the table that a path leads to keeps the bound when the change does. -/
theorem InRange.change?
    {byDots : Bool} {step : DraftTable → Option DraftTable}
    (keeps : ∀ {table changed}, table.InRange → step table = some changed → changed.InRange)
    (inRange : table.InRange) (changes : DraftTable.change? byDots step path table = some changed) :
    changed.InRange := by
  induction path generalizing table changed with
  | nil => exact keeps inRange changes
  | cons key path inductionHypothesis =>
      rw [DraftTable.change?] at changes
      split at changes
      · simp only [Option.bind_eq_bind, Option.bind_eq_some_iff, Option.pure_def,
          Option.some.injEq] at changes
        obtain ⟨inner, changesInner, rfl⟩ := changes
        have empty : (⟨if byDots then .dotted else .implied, []⟩ : DraftTable).InRange :=
          List.forall_mem_nil _
        exact inRange.set (.table (inductionHypothesis empty changesInner))
      · exact absurd changes nofun
      · rename_i origin entries found
        simp only [Option.bind_eq_bind, Option.bind_eq_some_iff, Option.pure_def,
          Option.some.injEq] at changes
        obtain ⟨_, _, inner, changesInner, rfl⟩ := changes
        have sameEntries : (⟨origin, entries⟩ : DraftTable).InRange :=
          (inRange.find? found).of_table
        exact inRange.set (.table (inductionHypothesis sameEntries changesInner))
      · rename_i elements found
        simp only [Option.bind_eq_bind, Option.bind_eq_some_iff, Option.pure_def,
          Option.some.injEq] at changes
        obtain ⟨last, isLast, inner, changesInner, rfl⟩ := changes
        have elementsInRange := (inRange.find? found).of_tables
        have lastInRange : (⟨.header, last⟩ : DraftTable).InRange :=
          elementsInRange last (List.mem_of_getLast? isLast)
        refine inRange.set (.tables (List.forall_mem_append.2 ⟨?_, ?_⟩))
        · exact fun entries member => elementsInRange entries (List.dropLast_subset _ member)
        · exact List.forall_mem_singleton.2 (inductionHypothesis lastInRange changesInner)

theorem InRange.assign?
    {value : Toml} (inRange : table.InRange) (valueInRange : value.InRange)
    (assigns : DraftTable.assign? path key value table = some changed) : changed.InRange := by
  refine inRange.change? ?_ assigns
  intro table changed inRange changes
  simp only [Option.bind_eq_bind, Option.bind_eq_some_iff, Option.pure_def,
    Option.some.injEq] at changes
  obtain ⟨_, _, _, _, rfl⟩ := changes
  exact inRange.set (.value valueInRange)

theorem InRange.openTable?
    (inRange : table.InRange) (opens : DraftTable.openTable? path key table = some changed) :
    changed.InRange := by
  refine inRange.change? ?_ opens
  intro table changed inRange changes
  split at changes
  · rw [← Option.some.inj changes]
    exact inRange.set (.table (List.forall_mem_nil _))
  · rename_i entries found
    rw [← Option.some.inj changes]
    exact inRange.set (.table (inRange.find? found).of_table)
  · exact absurd changes nofun

theorem InRange.openElement?
    (inRange : table.InRange) (opens : DraftTable.openElement? path key table = some changed) :
    changed.InRange := by
  refine inRange.change? ?_ opens
  intro table changed inRange changes
  have noEntries : ∀ entries ∈ [([] : List (String × Draft))], ∀ entry ∈ entries,
      entry.2.InRange := List.forall_mem_singleton.2 (List.forall_mem_nil _)
  split at changes
  · rw [← Option.some.inj changes]
    exact inRange.set (.tables noEntries)
  · rename_i elements found
    have elementsInRange := (inRange.find? found).of_tables
    rw [← Option.some.inj changes]
    exact inRange.set (.tables (List.forall_mem_append.2 ⟨elementsInRange, noEntries⟩))
  · exact absurd changes nofun

end DraftTable

/-- The values that the statement gives have no integer of more than 64 bits. -/
def Statement.InRange : Statement → Prop
  | .assign _ value => value.InRange
  | .openTable _ => True
  | .openElement _ => True

/-- What every step keeps holds after a run that succeeds. -/
theorem foldlM_invariant
    {alpha sigma : Type} {step : sigma → alpha → Option sigma} {items : List alpha}
    (invariant : sigma → Prop)
    (keeps : ∀ item ∈ items, ∀ {state next}, invariant state → step state item = some next →
      invariant next)
    {start final : sigma} (holds : invariant start) (runs : items.foldlM step start = some final) :
    invariant final := by
  induction items generalizing start with
  | nil => exact Option.some.inj runs ▸ holds
  | cons item items inductionHypothesis =>
      rw [List.foldlM_cons, Option.bind_eq_bind, Option.bind_eq_some_iff] at runs
      obtain ⟨next, steps, runs⟩ := runs
      rw [List.forall_mem_cons] at keeps
      exact inductionHypothesis keeps.2 (keeps.1 holds steps) runs

theorem add?_inRange
    {assembly next : Assembly} {statement : Statement} (inRange : assembly.root.InRange)
    (statementInRange : statement.InRange) (adds : assembly.add? statement = some next) :
    next.root.InRange := by
  cases statement with
  | assign key value =>
      simp only [Assembly.add?, Option.bind_eq_bind, Option.bind_eq_some_iff, Option.pure_def,
        Option.some.injEq] at adds
      obtain ⟨root, changes, rfl⟩ := adds
      exact inRange.change? (fun inRange => inRange.assign? statementInRange) changes
  | openTable key =>
      simp only [Assembly.add?, Option.bind_eq_bind, Option.bind_eq_some_iff, Option.pure_def,
        Option.some.injEq] at adds
      obtain ⟨root, changes, rfl⟩ := adds
      exact inRange.openTable? changes
  | openElement key =>
      simp only [Assembly.add?, Option.bind_eq_bind, Option.bind_eq_some_iff, Option.pure_def,
        Option.some.injEq] at adds
      obtain ⟨root, changes, rfl⟩ := adds
      exact inRange.openElement? changes

theorem assemble?_inRange
    {statements : List Statement} {value : Toml}
    (inRange : ∀ statement ∈ statements, statement.InRange)
    (assembles : assemble? statements = some value) : value.InRange := by
  simp only [assemble?, Option.bind_eq_bind, Option.bind_eq_some_iff, Option.pure_def,
    Option.some.injEq] at assembles
  obtain ⟨assembly, runs, rfl⟩ := assembles
  have start : Assembly.start.root.InRange := List.forall_mem_nil _
  have final := foldlM_invariant (fun assembly => assembly.root.InRange)
    (fun statement member {_ _} holds adds => add?_inRange holds (inRange statement member) adds)
    start runs
  exact .table (finishEntries_inRange _ final)

theorem inlineTable?_inRange
    {pairs : List (DottedKey × Toml)} {value : Toml}
    (inRange : ∀ pair ∈ pairs, pair.2.InRange)
    (assembles : inlineTable? pairs = some value) : value.InRange := by
  simp only [inlineTable?, Option.bind_eq_bind, Option.bind_eq_some_iff, Option.pure_def,
    Option.some.injEq] at assembles
  obtain ⟨root, runs, rfl⟩ := assembles
  have start : (⟨.header, []⟩ : DraftTable).InRange := List.forall_mem_nil _
  have final := foldlM_invariant DraftTable.InRange
    (fun pair member {_ _} holds assigns => holds.assign? (inRange pair member) assigns)
    start runs
  exact .table (finishEntries_inRange _ final)

/-! ## Values -/

theorem integer?_inRange
    {number : Int} {value : Toml} (reads : integer? number = some value) : value.InRange := by
  rw [integer?, Option.ite_none_right_eq_some, Option.some.injEq] at reads
  obtain ⟨⟨least, most⟩, rfl⟩ := reads
  exact .integer least most

theorem basedInteger?_inRange
    {base : Nat} {isDigit : Char → Bool} {text after : List Char} {value : Toml}
    (reads : basedInteger? base isDigit text = some (value, after)) : value.InRange := by
  simp only [basedInteger?, Option.bind_eq_bind, Option.bind_eq_some_iff, Option.pure_def,
    Option.some.injEq, Prod.mk.injEq] at reads
  obtain ⟨_, _, _, isInteger, rfl, _⟩ := reads
  exact integer?_inRange isInteger

theorem decimalNumber?_inRange
    {text after : List Char} {value : Toml}
    (reads : decimalNumber? text = some (value, after)) : value.InRange := by
  simp only [decimalNumber?, Option.bind_eq_bind, Option.bind_eq_some_iff] at reads
  obtain ⟨whole, _, fraction, _, exponent, _, reads⟩ := reads
  split at reads
  · simp only [Option.bind_eq_some_iff, Option.pure_def, Option.some.injEq,
      Prod.mk.injEq] at reads
    obtain ⟨_, isInteger, rfl, _⟩ := reads
    exact integer?_inRange isInteger
  · simp only [Option.bind_eq_some_iff, Option.pure_def, Option.some.injEq,
      Prod.mk.injEq] at reads
    obtain ⟨_, _, rfl, _⟩ := reads
    exact .float _

theorem number?_inRange
    {text after : List Char} {value : Toml} (reads : number? text = some (value, after)) :
    value.InRange := by
  unfold number? at reads
  split at reads
  · exact basedInteger?_inRange reads
  · exact basedInteger?_inRange reads
  · exact basedInteger?_inRange reads
  · split at reads
    · rw [Option.some.injEq, Prod.mk.injEq] at reads
      exact reads.1 ▸ .float _
    · rw [Option.some.injEq, Prod.mk.injEq] at reads
      exact reads.1 ▸ .float _
    · exact decimalNumber?_inRange reads

theorem date?_inRange
    {text after : List Char} {value : Toml} (reads : date? text = some (value, after)) :
    value.InRange := by
  simp only [date?, Option.map_eq_some_iff, Prod.mk.injEq] at reads
  obtain ⟨_, _, rfl, _⟩ := reads
  exact .date _

/-- What holds of everything that is read with some fuel. -/
structure ReadsInRange (fuel : Nat) : Prop where
  value {depth : Nat} {text after : List Char} {value : Toml} :
    value? fuel depth text = some (value, after) → value.InRange
  elements {depth : Nat} {text after : List Char} {elements : List Toml} :
    elements? fuel depth text = some (elements, after) → ∀ element ∈ elements, element.InRange
  pairs {depth : Nat} {text after : List Char} {pairs : List (DottedKey × Toml)} :
    pairs? fuel depth text = some (pairs, after) → ∀ pair ∈ pairs, pair.2.InRange

namespace ReadsInRange

variable {fuel depth : Nat} {text after : List Char}

theorem next_value
    (inRange : ReadsInRange fuel) {value : Toml}
    (reads : value? (fuel + 1) depth text = some (value, after)) : value.InRange := by
  unfold value? at reads
  dsimp only at reads
  split at reads
  · simp only [Option.bind_eq_bind, Option.bind_eq_some_iff, Option.pure_def, Option.some.injEq,
      Prod.mk.injEq] at reads
    obtain ⟨_, _, ⟨elements, rest⟩, readsElements, rfl, _⟩ := reads
    exact .array (inRange.elements readsElements)
  · simp only [Option.bind_eq_bind, Option.bind_eq_some_iff] at reads
    obtain ⟨_, _, reads⟩ := reads
    split at reads
    · rw [Option.pure_def, Option.some.injEq, Prod.mk.injEq] at reads
      exact reads.1 ▸ .table (List.forall_mem_nil _)
    · simp only [Option.bind_eq_some_iff, Option.pure_def, Option.some.injEq,
        Prod.mk.injEq] at reads
      obtain ⟨⟨pairs, rest⟩, readsPairs, _, assembles, rfl, _⟩ := reads
      exact inlineTable?_inRange (inRange.pairs readsPairs) assembles
  · rw [Option.some.injEq, Prod.mk.injEq] at reads
    exact reads.1 ▸ .boolean true
  · rw [Option.some.injEq, Prod.mk.injEq] at reads
    exact reads.1 ▸ .boolean false
  · split at reads
    · simp only [Option.map_eq_some_iff, Prod.mk.injEq] at reads
      obtain ⟨_, _, rfl, _⟩ := reads
      exact .string _
    · rcases Option.or_eq_some_iff.1 reads with readsDate | ⟨_, readsNumber⟩
      · exact date?_inRange readsDate
      · exact number?_inRange readsNumber
  · exact absurd reads nofun

theorem next_elements
    (inRange : ReadsInRange fuel) {elements : List Toml}
    (reads : elements? (fuel + 1) depth text = some (elements, after)) :
    ∀ element ∈ elements, element.InRange := by
  unfold elements? at reads
  dsimp only at reads
  split at reads
  · rw [Option.some.injEq, Prod.mk.injEq] at reads
    exact reads.1 ▸ List.forall_mem_nil _
  · rw [Option.bind_eq_bind, Option.bind_eq_some_iff] at reads
    obtain ⟨⟨element, rest⟩, readsElement, reads⟩ := reads
    have elementInRange := inRange.value readsElement
    dsimp only at reads
    split at reads
    · rw [Option.some.injEq, Prod.mk.injEq] at reads
      exact reads.1 ▸ List.forall_mem_singleton.2 elementInRange
    · simp only [Option.map_eq_some_iff, Prod.mk.injEq] at reads
      obtain ⟨_, readsOthers, rfl, _⟩ := reads
      exact List.forall_mem_cons.2 ⟨elementInRange, inRange.elements readsOthers⟩
    · exact absurd reads nofun

theorem next_pairs
    (inRange : ReadsInRange fuel) {pairs : List (DottedKey × Toml)}
    (reads : pairs? (fuel + 1) depth text = some (pairs, after)) :
    ∀ pair ∈ pairs, pair.2.InRange := by
  unfold pairs? at reads
  dsimp only at reads
  rw [Option.bind_eq_bind, Option.bind_eq_some_iff] at reads
  obtain ⟨⟨key, afterKey⟩, _, reads⟩ := reads
  dsimp only at reads
  split at reads
  · rw [Option.bind_eq_bind, Option.bind_eq_some_iff] at reads
    obtain ⟨⟨value, rest⟩, readsValue, reads⟩ := reads
    have valueInRange := inRange.value readsValue
    dsimp only at reads
    split at reads
    · rw [Option.some.injEq, Prod.mk.injEq] at reads
      exact reads.1 ▸ List.forall_mem_singleton.2 valueInRange
    · simp only [Option.map_eq_some_iff, Prod.mk.injEq] at reads
      obtain ⟨_, readsOthers, rfl, _⟩ := reads
      exact List.forall_mem_cons.2 ⟨valueInRange, inRange.pairs readsOthers⟩
    · exact absurd reads nofun
  · exact absurd reads nofun

end ReadsInRange

theorem readsInRange (fuel : Nat) : ReadsInRange fuel := by
  induction fuel with
  | zero => exact ⟨nofun, nofun, nofun⟩
  | succ fuel inRange => exact ⟨inRange.next_value, inRange.next_elements, inRange.next_pairs⟩

theorem line?_inRange
    {text next : List Char} {statement : Statement}
    (reads : line? text = some (some statement, next)) : statement.InRange := by
  rw [line?] at reads
  split at reads
  · simp only [Option.map_eq_some_iff, Prod.mk.injEq, Option.some.injEq] at reads
    obtain ⟨_, _, rfl, _⟩ := reads
    trivial
  · simp only [Option.map_eq_some_iff, Prod.mk.injEq, Option.some.injEq] at reads
    obtain ⟨_, _, rfl, _⟩ := reads
    trivial
  · split at reads
    · exact absurd reads nofun
    · simp only [Option.map_eq_some_iff, Prod.mk.injEq, Option.some.injEq] at reads
      obtain ⟨⟨_, _⟩, assigns, rfl, _⟩ := reads
      rw [assignment?, Option.bind_eq_bind, Option.bind_eq_some_iff] at assigns
      obtain ⟨⟨key, afterKey⟩, _, assigns⟩ := assigns
      dsimp only at assigns
      split at assigns
      · simp only [Option.bind_eq_bind, Option.bind_eq_some_iff, Option.pure_def,
          Option.some.injEq, Prod.mk.injEq] at assigns
        obtain ⟨_, readsValue, _, _, rfl, _⟩ := assigns
        exact (readsInRange _).value readsValue
      · exact absurd assigns nofun

theorem statements?_inRange
    {fuel : Nat} {text : List Char} {statements : List Statement}
    (reads : statements? fuel text = some statements) :
    ∀ statement ∈ statements, statement.InRange := by
  induction fuel generalizing text statements with
  | zero =>
      cases text with
      | nil => exact Option.some.inj reads ▸ List.forall_mem_nil _
      | cons first others => exact absurd reads nofun
  | succ fuel inductionHypothesis =>
      cases text with
      | nil => exact Option.some.inj reads ▸ List.forall_mem_nil _
      | cons first others =>
          simp only [statements?, Option.bind_eq_bind, Option.bind_eq_some_iff,
            Option.pure_def, Option.some.injEq] at reads
          obtain ⟨⟨statement, next⟩, readsLine, rest, readsRest, rfl⟩ := reads
          refine List.forall_mem_append.2 ⟨?_, inductionHypothesis readsRest⟩
          intro given member
          rw [Option.mem_toList] at member
          subst member
          exact line?_inRange readsLine

/-- What a document describes has no integer of more than 64 bits. -/
theorem parse?_inRange
    {content : String} {value : Toml} (parsed : parse? content = some value) :
    value.InRange := by
  rw [parse?, Option.bind_eq_bind, Option.bind_eq_some_iff] at parsed
  obtain ⟨statements, reads, assembles⟩ := parsed
  exact assemble?_inRange (statements?_inRange reads) assembles

end LectureQuiz.Toml
