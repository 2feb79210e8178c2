import LectureQuiz.Toml.Value

/-!
# Assembling tables

A document builds its tables step by step: by headers, by elements of arrays of
tables, and by keys with dots. A table that a header opened is not opened again,
a table that a dotted key made takes further dotted keys only, and no value is
given twice.
-/

namespace LectureQuiz.Toml

/-- How a table came to be. -/
inductive Origin where
  /-- A header opened it, or it is the document itself. -/
  | header
  /-- It lies on the way to another header's table. -/
  | implied
  /-- It lies on the way of a dotted key. -/
  | dotted
  deriving DecidableEq, Repr

/-- A table under construction. -/
inductive Draft where
  | value (value : Toml)
  | table (origin : Origin) (entries : List (String × Draft))
  | tables (elements : List (List (String × Draft)))

/-- The entries of a table under construction, and how it came to be. -/
structure DraftTable where
  origin : Origin
  entries : List (String × Draft)

namespace DraftTable

def find? (table : DraftTable) (key : String) : Option Draft :=
  table.entries.lookup key

/-- Gives a key a new draft, at the end if it had none. -/
def set (table : DraftTable) (key : String) (draft : Draft) : DraftTable :=
  if (table.find? key).isSome then
    ⟨table.origin, table.entries.map fun entry =>
      if entry.1 = key then (key, draft) else entry⟩
  else
    ⟨table.origin, table.entries ++ [(key, draft)]⟩

/-- Changes the table that a path of keys leads to. Tables on the way are made
where there are none; the last element stands for an array of tables. A dotted
key may not pass through the table of a header. -/
def change? (byDots : Bool) (step : DraftTable → Option DraftTable) :
    List String → DraftTable → Option DraftTable
  | [], current => step current
  | key :: path, current =>
      match current.find? key with
      | none => do
          let origin := if byDots then Origin.dotted else Origin.implied
          let inner ← change? byDots step path ⟨origin, []⟩
          return current.set key (.table inner.origin inner.entries)
      | some (.value _) => none
      | some (.table origin entries) => do
          guard (!(byDots && origin == .header))
          let inner ← change? byDots step path ⟨origin, entries⟩
          return current.set key (.table inner.origin inner.entries)
      | some (.tables elements) => do
          let last ← elements.getLast?
          let inner ← change? byDots step path ⟨.header, last⟩
          return current.set key (.tables (elements.dropLast ++ [inner.entries]))

/-- Gives a value to a key with dots, seen from an open table. -/
def assign? (path : List String) (key : String) (value : Toml) :
    DraftTable → Option DraftTable :=
  change? true (fun table => do
    guard (path.isEmpty || table.origin == .dotted)
    guard (table.find? key).isNone
    return table.set key (.value value)) path

/-- Opens the table of a header. -/
def openTable? (path : List String) (key : String) :
    DraftTable → Option DraftTable :=
  change? false (fun table =>
    match table.find? key with
    | none => some (table.set key (.table .header []))
    | some (.table .implied entries) =>
        some (table.set key (.table .header entries))
    | some _ => none) path

/-- Opens a new element of an array of tables. -/
def openElement? (path : List String) (key : String) :
    DraftTable → Option DraftTable :=
  change? false (fun table =>
    match table.find? key with
    | none => some (table.set key (.tables [[]]))
    | some (.tables elements) =>
        some (table.set key (.tables (elements ++ [[]])))
    | some _ => none) path

end DraftTable

mutual

/-- The value that a draft has come to. -/
def Draft.finish : Draft → Toml
  | .value value => value
  | .table _ entries => .table (finishEntries entries)
  | .tables elements => .array (finishElements elements)

def finishEntries : List (String × Draft) → List (String × Toml)
  | [] => []
  | (key, draft) :: rest => (key, draft.finish) :: finishEntries rest

def finishElements : List (List (String × Draft)) → List Toml
  | [] => []
  | entries :: rest => .table (finishEntries entries) :: finishElements rest

end

/-- A key with dots: the keys on the way, and the last one. -/
structure DottedKey where
  path : List String
  key : String
  deriving DecidableEq, Repr

namespace DottedKey

def all (dotted : DottedKey) : List String :=
  dotted.path ++ [dotted.key]

end DottedKey

/-- A line of a document. -/
inductive Statement where
  | assign (key : DottedKey) (value : Toml)
  | openTable (key : DottedKey)
  | openElement (key : DottedKey)

/-- A document under construction: its table, and the path of the open table. -/
structure Assembly where
  root : DraftTable
  openPath : List String

namespace Assembly

def start : Assembly := ⟨⟨.header, []⟩, []⟩

def add? (assembly : Assembly) : Statement → Option Assembly
  | .assign key value => do
      let root ← DraftTable.change? false
        (DraftTable.assign? key.path key.key value) assembly.openPath assembly.root
      return ⟨root, assembly.openPath⟩
  | .openTable key => do
      let root ← DraftTable.openTable? key.path key.key assembly.root
      return ⟨root, key.all⟩
  | .openElement key => do
      let root ← DraftTable.openElement? key.path key.key assembly.root
      return ⟨root, key.all⟩

end Assembly

/-- The table that the lines of a document build. -/
def assemble? (statements : List Statement) : Option Toml := do
  let assembly ← statements.foldlM Assembly.add? Assembly.start
  return .table (finishEntries assembly.root.entries)

/-- The table that the pairs of an inline table build. -/
def inlineTable? (pairs : List (DottedKey × Toml)) : Option Toml := do
  let root ← pairs.foldlM
    (fun table (pair : DottedKey × Toml) =>
      DraftTable.assign? pair.1.path pair.1.key pair.2 table)
    (⟨.header, []⟩ : DraftTable)
  return .table (finishEntries root.entries)

end LectureQuiz.Toml
