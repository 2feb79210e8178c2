import Mathlib.Data.Option.Basic
import LectureQuiz.Fields
import LectureQuiz.Proofs.Lookup
import LectureQuiz.Toml.Assembly

/-!
# Assembling tables one after the other

A written document opens its tables one after the other and comes back to none of them.
The open table then stands at the end of its parent, and `Opens` says so: a path leads to
the table in the gap of a frame, and what changes that table leaves the frame as it is.
-/

namespace LectureQuiz.Toml

/-- The entries of a table under construction. -/
abbrev Entries := List (String × Draft)

variable {key : String} {path : List String} {front entries : Entries} {draft : Draft}
  {origin : Origin}

theorem lookup_concat (fresh : front.lookup key = none) (draft : Draft) :
    (front ++ [(key, draft)]).lookup key = some draft := by
  rw [List.lookup_append, fresh, Option.none_or, List.lookup_cons_self]

namespace DraftTable

theorem set_fresh (fresh : entries.lookup key = none) (draft : Draft) :
    set ⟨origin, entries⟩ key draft = ⟨origin, entries ++ [(key, draft)]⟩ := by
  have absent : find? ⟨origin, entries⟩ key = none := fresh
  rw [set, if_neg (by simp [absent])]

theorem set_last (fresh : front.lookup key = none) (old new : Draft) :
    set ⟨origin, front ++ [(key, old)]⟩ key new = ⟨origin, front ++ [(key, new)]⟩ := by
  have isThere : find? ⟨origin, front ++ [(key, old)]⟩ key = some old := lookup_concat fresh old
  have kept : (front.map fun entry => if entry.1 = key then (key, new) else entry) = front := by
    rw [List.map_congr_left, List.map_id]
    intro entry member
    have different : entry.1 ≠ key := fun same =>
      lookup_eq_none_iff_not_mem.1 fresh (List.mem_map.2 ⟨entry, member, same⟩)
    exact if_neg different
  rw [set, if_pos (by simp [isThere])]
  simp [kept]

end DraftTable

/-- The path leads to the table in the gap of the frame. -/
def Opens (path : List String) (frame : Entries → Entries) : Prop :=
  ∀ ⦃step : DraftTable → Option DraftTable⦄ ⦃entries changed : Entries⦄,
    step ⟨.header, entries⟩ = some ⟨.header, changed⟩ →
      DraftTable.change? false step path ⟨.header, frame entries⟩ =
        some ⟨.header, frame changed⟩

namespace Opens

variable {frame : Entries → Entries}

theorem root : Opens [] id :=
  fun _ _ _ changes => changes

/-- A table at the end of the document. -/
theorem table (fresh : front.lookup key = none) (opens : Opens path frame) :
    Opens (key :: path) fun entries => front ++ [(key, .table .header (frame entries))] := by
  intro step entries changed changes
  have isThere : DraftTable.find?
      ⟨.header, front ++ [(key, .table .header (frame entries))]⟩ key =
        some (.table .header (frame entries)) := lookup_concat fresh _
  simp [DraftTable.change?, isThere, guard, opens changes, DraftTable.set_last fresh]

/-- The last element of an array of tables at the end of the document. -/
theorem element
    (fresh : front.lookup key = none) (earlier : List Entries) (opens : Opens path frame) :
    Opens (key :: path) fun entries =>
      front ++ [(key, .tables (earlier ++ [frame entries]))] := by
  intro step entries changed changes
  have isThere : DraftTable.find?
      ⟨.header, front ++ [(key, .tables (earlier ++ [frame entries]))]⟩ key =
        some (.tables (earlier ++ [frame entries])) := lookup_concat fresh _
  simp [DraftTable.change?, isThere, opens changes, DraftTable.set_last fresh]

end Opens

theorem foldlM_append_of
    {alpha sigma : Type} {step : sigma → alpha → Option sigma} {start middle final : sigma}
    {front back : List alpha} (first : front.foldlM step start = some middle)
    (second : back.foldlM step middle = some final) :
    (front ++ back).foldlM step start = some final := by
  rw [List.foldlM_append, first]
  exact second

theorem foldlM_cons_of
    {alpha sigma : Type} {step : sigma → alpha → Option sigma} {start middle final : sigma}
    {item : alpha} {items : List alpha} (first : step start item = some middle)
    (second : items.foldlM step middle = some final) :
    (item :: items).foldlM step start = some final := by
  rw [List.foldlM_cons, first]
  exact second

/-- The statements that give values to the keys of the open table. -/
def assignments (given : Fields Toml) : List Statement :=
  given.map fun field => .assign ⟨[], field.1⟩ field.2

/-- The entries that such statements make. -/
def valueEntries (given : Fields Toml) : Entries :=
  given.map fun field => (field.1, .value field.2)

variable {frame : Entries → Entries} {given : Fields Toml}

theorem keys_valueEntries (given : Fields Toml) :
    (valueEntries given).map Prod.fst = given.map Prod.fst := by
  rw [valueEntries, List.map_map]
  rfl

theorem add?_assign
    (opens : Opens path frame) (fresh : entries.lookup key = none) (value : Toml) :
    Assembly.add? ⟨⟨.header, frame entries⟩, path⟩ (.assign ⟨[], key⟩ value) =
      some ⟨⟨.header, frame (entries ++ [(key, .value value)])⟩, path⟩ := by
  have absent : DraftTable.find? ⟨.header, entries⟩ key = none := fresh
  have assigns : DraftTable.assign? [] key value ⟨.header, entries⟩ =
      some ⟨.header, entries ++ [(key, .value value)]⟩ := by
    simp [DraftTable.assign?, DraftTable.change?, guard, absent, DraftTable.set_fresh fresh]
  simp [Assembly.add?, opens assigns]

theorem foldlM_assignments
    (opens : Opens path frame)
    (distinct : ((entries ++ valueEntries given).map Prod.fst).Nodup) :
    (assignments given).foldlM Assembly.add? ⟨⟨.header, frame entries⟩, path⟩ =
      some ⟨⟨.header, frame (entries ++ valueEntries given)⟩, path⟩ := by
  induction given generalizing entries with
  | nil =>
      rw [valueEntries, List.map_nil, List.append_nil]
      rfl
  | cons field given inductionHypothesis =>
      have split : entries ++ valueEntries (field :: given) =
          (entries ++ [(field.1, .value field.2)]) ++ valueEntries given := by
        simp [valueEntries]
      rw [split] at distinct ⊢
      have fresh : entries.lookup field.1 = none := by
        rw [lookup_eq_none_iff_not_mem]
        simp only [List.map_append, List.map_cons, List.map_nil] at distinct
        have apart := (List.nodup_append.1 (List.nodup_append.1 distinct).1).2.2
        exact fun member => apart _ member _ List.mem_cons_self rfl
      exact foldlM_cons_of (add?_assign opens fresh field.2) (inductionHypothesis distinct)

theorem add?_openTable
    (opens : Opens path frame) (fresh : entries.lookup key = none) (before : List String) :
    Assembly.add? ⟨⟨.header, frame entries⟩, before⟩ (.openTable ⟨path, key⟩) =
      some ⟨⟨.header, frame (entries ++ [(key, .table .header [])])⟩, path ++ [key]⟩ := by
  have absent : DraftTable.find? ⟨.header, entries⟩ key = none := fresh
  have opened : DraftTable.openTable? path key ⟨.header, frame entries⟩ =
      some ⟨.header, frame (entries ++ [(key, .table .header [])])⟩ := by
    refine opens ?_
    rw [absent, DraftTable.set_fresh fresh]
  simp [Assembly.add?, opened, DottedKey.all]

/-- A table that is written as a whole comes to the end of the document. -/
theorem foldlM_table
    (fresh : front.lookup key = none) (distinct : (given.map Prod.fst).Nodup)
    (before : List String) :
    (.openTable ⟨[], key⟩ :: assignments given).foldlM Assembly.add?
        ⟨⟨.header, front⟩, before⟩ =
      some ⟨⟨.header, front ++ [(key, .table .header (valueEntries given))]⟩, [key]⟩ := by
  have isOpen : Assembly.add? ⟨⟨.header, front⟩, before⟩ (.openTable ⟨[], key⟩) =
      some ⟨⟨.header, front ++ [(key, .table .header [])]⟩, [key]⟩ :=
    add?_openTable Opens.root fresh before
  have opens : Opens [key] fun entries => front ++ [(key, .table .header entries)] :=
    Opens.root.table fresh
  refine foldlM_cons_of isOpen (foldlM_assignments opens ?_)
  rw [List.nil_append, keys_valueEntries]
  exact distinct

/-- An array of tables at the end of the document, which is not there without elements. -/
def tablesEntry (key : String) : List Entries → Entries
  | [] => []
  | element :: more => [(key, .tables (element :: more))]

theorem tablesEntry_concat (key : String) (earlier : List Entries) (last : Entries) :
    tablesEntry key (earlier ++ [last]) = [(key, .tables (earlier ++ [last]))] := by
  cases earlier with
  | nil => rfl
  | cons first others => rfl

theorem add?_openElement
    (fresh : front.lookup key = none) (earlier : List Entries) (before : List String) :
    Assembly.add? ⟨⟨.header, front ++ tablesEntry key earlier⟩, before⟩
        (.openElement ⟨[], key⟩) =
      some ⟨⟨.header, front ++ [(key, .tables (earlier ++ [[]]))]⟩, [key]⟩ := by
  cases earlier with
  | nil =>
      have absent : DraftTable.find? ⟨.header, front⟩ key = none := fresh
      simp [Assembly.add?, DraftTable.openElement?, DraftTable.change?, tablesEntry, absent,
        DraftTable.set_fresh fresh, DottedKey.all]
  | cons first others =>
      have isThere : DraftTable.find?
          ⟨.header, front ++ [(key, .tables (first :: others))]⟩ key =
            some (.tables (first :: others)) := lookup_concat fresh _
      simp [Assembly.add?, DraftTable.openElement?, DraftTable.change?, tablesEntry, isThere,
        DraftTable.set_last fresh, DottedKey.all]

/-- The lines of an element of an array of tables, the last of which are a table in it. -/
def elementStatements (key inner : String) (given innerGiven : Fields Toml) : List Statement :=
  .openElement ⟨[], key⟩ :: (assignments given ++
    .openTable ⟨[key], inner⟩ :: assignments innerGiven)

/-- The element that these lines make. -/
def elementEntries (inner : String) (given innerGiven : Fields Toml) : Entries :=
  valueEntries given ++ [(inner, .table .header (valueEntries innerGiven))]

theorem foldlM_element
    {inner : String} {innerGiven : Fields Toml}
    (fresh : front.lookup key = none) (distinct : (given.map Prod.fst).Nodup)
    (innerFresh : inner ∉ given.map Prod.fst) (innerDistinct : (innerGiven.map Prod.fst).Nodup)
    (earlier : List Entries) (before : List String) :
    (elementStatements key inner given innerGiven).foldlM Assembly.add?
        ⟨⟨.header, front ++ tablesEntry key earlier⟩, before⟩ =
      some ⟨⟨.header, front ++
        tablesEntry key (earlier ++ [elementEntries inner given innerGiven])⟩,
        [key, inner]⟩ := by
  have opens : Opens [key] fun entries =>
      front ++ [(key, .tables (earlier ++ [entries]))] := Opens.root.element fresh earlier
  have assigned : (assignments given).foldlM Assembly.add?
        ⟨⟨.header, front ++ [(key, .tables (earlier ++ [[]]))]⟩, [key]⟩ =
      some ⟨⟨.header, front ++ [(key, .tables (earlier ++ [valueEntries given]))]⟩, [key]⟩ := by
    refine foldlM_assignments opens ?_
    rw [List.nil_append, keys_valueEntries]
    exact distinct
  have isInnerFresh : (valueEntries given).lookup inner = none := by
    rw [lookup_eq_none_iff_not_mem, keys_valueEntries]
    exact innerFresh
  have innerOpen := add?_openTable opens isInnerFresh [key]
  have innerOpens : Opens [key, inner] fun entries =>
      front ++ [(key, .tables (earlier ++
        [valueEntries given ++ [(inner, .table .header entries)]]))] :=
    (Opens.root.table isInnerFresh).element fresh earlier
  have innerAssigned : (assignments innerGiven).foldlM Assembly.add?
        ⟨⟨.header, front ++ [(key, .tables (earlier ++
          [valueEntries given ++ [(inner, .table .header [])]]))]⟩, [key, inner]⟩ =
      some ⟨⟨.header, front ++ [(key, .tables (earlier ++
        [elementEntries inner given innerGiven]))]⟩, [key, inner]⟩ := by
    refine foldlM_assignments innerOpens ?_
    rw [List.nil_append, keys_valueEntries]
    exact innerDistinct
  rw [tablesEntry_concat]
  exact foldlM_cons_of (add?_openElement fresh earlier before) <|
    foldlM_append_of assigned (foldlM_cons_of innerOpen innerAssigned)

/-- The elements of an array of tables that are written one after the other. -/
theorem foldlM_elements
    {alpha : Type} {inner : String} {given innerGiven : alpha → Fields Toml}
    (fresh : front.lookup key = none)
    (distinct : ∀ item, ((given item).map Prod.fst).Nodup)
    (innerFresh : ∀ item, inner ∉ (given item).map Prod.fst)
    (innerDistinct : ∀ item, ((innerGiven item).map Prod.fst).Nodup)
    (items : List alpha) (before : List String) :
    ∃ after,
      (items.flatMap fun item =>
          elementStatements key inner (given item) (innerGiven item)).foldlM Assembly.add?
          ⟨⟨.header, front⟩, before⟩ =
        some ⟨⟨.header, front ++ tablesEntry key
          (items.map fun item => elementEntries inner (given item) (innerGiven item))⟩,
          after⟩ := by
  -- The induction starts behind any elements, because each item finds those before it.
  have fromEarlier : ∀ (items : List alpha) (earlier : List Entries) (before : List String),
      ∃ after,
        (items.flatMap fun item =>
            elementStatements key inner (given item) (innerGiven item)).foldlM Assembly.add?
            ⟨⟨.header, front ++ tablesEntry key earlier⟩, before⟩ =
          some ⟨⟨.header, front ++ tablesEntry key (earlier ++
            items.map fun item => elementEntries inner (given item) (innerGiven item))⟩,
            after⟩ := by
    intro items
    induction items with
    | nil => exact fun earlier before => ⟨before, by simp⟩
    | cons item items inductionHypothesis =>
        intro earlier before
        have adds := foldlM_element fresh (distinct item) (innerFresh item)
          (innerDistinct item) earlier before
        obtain ⟨after, addsOthers⟩ := inductionHypothesis
          (earlier ++ [elementEntries inner (given item) (innerGiven item)]) [key, inner]
        rw [List.append_assoc, List.singleton_append] at addsOthers
        exact ⟨after, foldlM_append_of adds addsOthers⟩
  obtain ⟨after, adds⟩ := fromEarlier items [] before
  refine ⟨after, ?_⟩
  simpa [tablesEntry] using adds

theorem finishEntries_append (front back : Entries) :
    finishEntries (front ++ back) = finishEntries front ++ finishEntries back := by
  induction front with
  | nil => rfl
  | cons entry front inductionHypothesis =>
      rw [List.cons_append, finishEntries, finishEntries, inductionHypothesis, List.cons_append]

theorem finishEntries_valueEntries (given : Fields Toml) :
    finishEntries (valueEntries given) = given := by
  induction given with
  | nil => rfl
  | cons field given inductionHypothesis =>
      rw [valueEntries, List.map_cons, finishEntries]
      exact congrArg _ inductionHypothesis

theorem finishElements_map
    {alpha : Type} (entries : alpha → Entries) (items : List alpha) :
    finishElements (items.map entries) =
      items.map fun item => .table (finishEntries (entries item)) := by
  induction items with
  | nil => rfl
  | cons item items inductionHypothesis =>
      rw [List.map_cons, finishElements, inductionHypothesis, List.map_cons]

theorem finishEntries_elementEntries (inner : String) (given innerGiven : Fields Toml) :
    finishEntries (elementEntries inner given innerGiven) =
      given ++ [(inner, .table innerGiven)] := by
  rw [elementEntries, finishEntries_append, finishEntries_valueEntries]
  simp [finishEntries, Draft.finish, finishEntries_valueEntries]

end LectureQuiz.Toml
