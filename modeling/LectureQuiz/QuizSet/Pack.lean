import LectureQuiz.Job
import LectureQuiz.QuizSet
import LectureQuiz.Sha256

/-!
# Packing quiz sets

Packing writes the items of a bank as sets, module by module, and lists them in
the manifest of the folder. Sets of other modules stay listed as long as their
files are there. Every file is written under another name first, so that a
reader sees its old content or its new content as a whole.
-/

namespace LectureQuiz

open LectureQuiz.Text

/-- Items by module, in the order in which the modules were seen. -/
abbrev ModuleGroups := List (UInt32 × List Item)

namespace ModuleGroups

/-- Puts an item at the end of its module's group, or opens one at the end. -/
def add (groups : ModuleGroups) (item : Item) : ModuleGroups :=
  match groups with
  | [] => [(item.module, [item])]
  | (module, items) :: rest =>
      if module = item.module then (module, items ++ [item]) :: rest
      else (module, items) :: add rest item

end ModuleGroups

/-- The items of each module. Modules are in the order of their first items, and
the items of a module keep their order. -/
def groupByModule (items : List Item) : ModuleGroups :=
  items.foldl ModuleGroups.add []

/-- The items of some banks that can be used, one bank after the other. -/
def readBanks (banks : List Path) : Job (List Item) := do
  let contents ← banks.mapM (Job.readRecords Item)
  return contents.flatten.filter Item.isValid

/-- What was packed, and where. -/
structure Packing where
  folder : Path
  /-- The modules that were written. -/
  modules : List UInt32
  manifest : Manifest
  deriving Repr

/-- The name under which a file is written before it gets its own. -/
def draftName (fileName : String) : String :=
  s!".{fileName}.tmp"

/-- Gives a file in a folder new content. -/
def replaceFile (folder : Path) (fileName content : String) : Job Unit := do
  let draft := folder.join (draftName fileName)
  Job.writeText draft content
  Job.moveFile draft (folder.join fileName)

/-- The manifest of a folder; one that cannot be read lists nothing. -/
def FileTree.manifest (files : FileTree) (folder : Path) : Manifest :=
  match files.read (folder.join Manifest.fileName) with
  | .error _ => .empty
  | .ok content =>
      ((text? content).bind fun text =>
        Json.parse? text.toList >>= Manifest.ofJson?).getD .empty

/-- The entry of the set that holds a group of items. -/
def entryOf (module : UInt32) (items : List Item) (mode : SetMode) : SetEntry where
  mode := mode
  module := module
  fileName := mode.fileName module
  items := items.length.toUInt64
  digest := Sha256.ofText (Records.render items)

/-- Writes the sets of one module, and returns their entries. -/
def writeSets (folder : Path) (module : UInt32) (items : List Item) :
    Job (List SetEntry) := do
  SetMode.all.forM fun mode =>
    replaceFile folder (mode.fileName module) (Records.render items)
  return SetMode.all.map (entryOf module items)

/-- The manifest after some modules were written: the new entries, and the older
ones of other modules whose files are there. -/
def mergeManifest
    (files : FileTree) (folder : Path) (modules : List UInt32)
    (written : List SetEntry) : Manifest :=
  let kept := (files.manifest folder).sets.filter fun entry =>
    !modules.contains entry.module &&
      files.pathExists (folder.join entry.fileName)
  ⟨(kept ++ written).mergeSort SetEntry.precedes⟩

/-- Packs the items of one module, or of all modules. When there are none,
nothing is written. -/
def pack (items : List Item) (folder : Path) (module : Option UInt32) :
    Job Packing := do
  let groups := groupByModule <| items.filter fun item =>
    module.all (item.module == ·)
  if groups.isEmpty then
    return ⟨folder, [], .empty⟩
  Job.createFolders folder
  let written ← groups.mapM fun (module, group) => writeSets folder module group
  let modules := groups.map Prod.fst
  let manifest := mergeManifest (← Job.files) folder modules written.flatten
  replaceFile folder Manifest.fileName manifest.toJson.pretty
  return ⟨folder, modules, manifest⟩

/-- Packs the items of some banks. All banks are read before anything is
written. -/
def packBanks (banks : List Path) (folder : Path) (module : Option UInt32) :
    Job Packing := do
  pack (← readBanks banks) folder module

/-- The items of a packed set. A set without items that can be used is empty. -/
def loadSet (folder : Path) (module : UInt32) (mode : SetMode) :
    Job (List Item) := do
  let path := folder.join (mode.fileName module)
  if !(← Job.files).pathExists path then
    throw (.missingInput path)
  let items := (← Job.readRecords Item path).filter Item.isValid
  if items.isEmpty then
    throw (.emptySet path)
  return items

end LectureQuiz
