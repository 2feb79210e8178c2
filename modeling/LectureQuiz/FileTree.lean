import LectureQuiz.Path

/-!
# File trees

A file tree is what the stages read and change: the files and folders that can
be reached from the working folder. Every operation is a function on trees, and
fails in the way in which a file system refuses it.
-/

namespace LectureQuiz

/-- Why a file or folder could not be used. -/
inductive FileFault where
  | absent
  | notAFolder
  | isAFolder
  | alreadyExists
  | nameTooLong
  | badName
  deriving DecidableEq, Repr

/-- Where a file or folder lies: the names that lead to it from the working
folder. The name `..` stands only in front and leads out of the working folder,
the name `/` stands only first and leads to the root of all folders. -/
abbrev Location := List String

namespace Location

/-- Whether the location is the working folder, a folder above it, or the root:
folders that are always there. -/
def isAnchor (location : Location) : Bool :=
  location.all (· == "..") || location == ["/"]

/-- The folder above. -/
def up (location : Location) : Location :=
  if location.all (· == "..") then location ++ [".."]
  else if location = ["/"] then location
  else location.dropLast

/-- The text of a path that leads to the location. -/
def text : Location → String
  | [] => "."
  | "/" :: names => "/" ++ "/".intercalate names
  | names => "/".intercalate names

end Location

inductive Node where
  | folder
  | file (content : ByteArray)
  deriving BEq

/-- Files and folders by location: at most one node lies at each. -/
structure FileTree where
  nodes : List (Location × Node)
  distinct : (nodes.map Prod.fst).Nodup

namespace FileTree

def empty : FileTree := ⟨[], .nil⟩

/-- The nodes whose locations satisfy the property. -/
def restrict (tree : FileTree) (keep : Location → Bool) : FileTree where
  nodes := tree.nodes.filter fun entry => keep entry.1
  distinct := tree.distinct.sublist (List.filter_sublist.map _)

/-- What is at a location. -/
def node? (tree : FileTree) (location : Location) : Option Node :=
  if location.isAnchor then some .folder else tree.nodes.lookup location

def erase (tree : FileTree) (location : Location) : FileTree :=
  tree.restrict (· != location)

/-- Puts a node at a location, in place of what is there. -/
def put (tree : FileTree) (location : Location) (node : Node) : FileTree where
  nodes := (location, node) :: (tree.erase location).nodes
  distinct := by
    refine List.nodup_cons.2 ⟨?_, (tree.erase location).distinct⟩
    simp [erase, restrict]

theorem lookup_filter
    (keep : Location → Bool) (nodes : List (Location × Node))
    (location : Location) :
    (nodes.filter fun entry => keep entry.1).lookup location =
      if keep location then nodes.lookup location else none := by
  induction nodes with
  | nil => simp
  | cons entry rest inductionHypothesis =>
      obtain ⟨first, node⟩ := entry
      by_cases same : location = first
      · subst same
        by_cases kept : keep location <;>
          simp [kept, inductionHypothesis]
      · have different : (location == first) = false := by simpa using same
        by_cases kept : keep first <;>
          simp [kept, inductionHypothesis, List.lookup_cons, different]

/-- A part of a tree has the nodes of the tree at the locations that it keeps. -/
theorem node?_restrict
    (tree : FileTree) (keep : Location → Bool) (location : Location) :
    (tree.restrict keep).node? location =
      if location.isAnchor ∨ keep location then tree.node? location
      else none := by
  by_cases anchor : location.isAnchor <;>
    simp [node?, restrict, anchor, lookup_filter]

@[simp] theorem node?_erase_self
    (tree : FileTree) {location : Location} (inside : location.isAnchor = false) :
    (tree.erase location).node? location = none := by
  simp [erase, node?_restrict, inside]

theorem node?_erase_of_ne
    (tree : FileTree) {location other : Location} (different : other ≠ location) :
    (tree.erase location).node? other = tree.node? other := by
  simp [erase, node?_restrict, different]

@[simp] theorem node?_put_self
    (tree : FileTree) {location : Location} (node : Node)
    (inside : location.isAnchor = false) :
    (tree.put location node).node? location = some node := by
  simp [node?, put, inside]

theorem node?_put_of_ne
    (tree : FileTree) {location other : Location} (node : Node)
    (different : other ≠ location) :
    (tree.put location node).node? other = tree.node? other := by
  have unequal : (other == location) = false := by simpa using different
  rw [← node?_erase_of_ne tree different]
  simp [node?, put, List.lookup_cons, unequal]

/-- The greatest number of bytes in the name of a file. -/
def maxNameBytes : Nat := 255

/-- The greatest number of bytes in a path. -/
def maxPathBytes : Nat := 4095

/-- The location that the parts of a path lead to. Everything that is passed on
the way has to be a folder. -/
def walk (tree : FileTree) (location : Location) :
    List String → Except FileFault Location
  | [] => .ok location
  | part :: rest =>
      match tree.node? location with
      | none => .error .absent
      | some (.file _) => .error .notAFolder
      | some .folder =>
          if Path.isIdle part then tree.walk location rest
          else if part = ".." then tree.walk location.up rest
          else if maxNameBytes < part.utf8ByteSize then .error .nameTooLong
          else tree.walk (location ++ [part]) rest

/-- Where the parts of a path start. -/
def startOf (path : Path) : Location :=
  if path.isAbsolute then ["/"] else []

/-- Refuses a path that no file system takes. -/
def checkPath (path : Path) : Except FileFault Unit :=
  if path.text.toList.contains '\x00' then .error .badName
  else if maxPathBytes < path.text.utf8ByteSize then .error .nameTooLong
  else if path.text = "" then .error .absent
  else .ok ()

/-- The location of a path. Nothing needs to be there, but the folder it would
be in. -/
def locate (tree : FileTree) (path : Path) : Except FileFault Location := do
  checkPath path
  tree.walk (startOf path) path.parts

/-- What is at a path. -/
def at? (tree : FileTree) (path : Path) : Except FileFault Node := do
  let location ← tree.locate path
  match tree.node? location with
  | some node => return node
  | none => throw .absent

def pathExists (tree : FileTree) (path : Path) : Bool :=
  (tree.at? path).isOk

def isFolder (tree : FileTree) (path : Path) : Bool :=
  match tree.at? path with
  | .ok .folder => true
  | _ => false

def isFile (tree : FileTree) (path : Path) : Bool :=
  match tree.at? path with
  | .ok (.file _) => true
  | _ => false

/-- The content of a file. -/
def read (tree : FileTree) (path : Path) : Except FileFault ByteArray := do
  match ← tree.at? path with
  | .folder => throw .isAFolder
  | .file content => return content

/-! ## Changes -/

/-- The location at which a path may create a file: a name in a folder that is
there. -/
def target (tree : FileTree) (path : Path) : Except FileFault Location := do
  checkPath path
  match (path.parts.reverse.dropWhile (· == "")) with
  | [] => throw .isAFolder
  | name :: outer =>
      let folder ← tree.walk (startOf path) (outer.reverse ++ [""])
      if path.parts.getLast? = some "" ∨ name = "." ∨ name = ".." then
        throw .isAFolder
      else if maxNameBytes < name.utf8ByteSize then
        throw .nameTooLong
      else
        return folder ++ [name]

/-- Writes a file, in place of an older one. -/
def write (tree : FileTree) (path : Path) (content : ByteArray) :
    Except FileFault FileTree := do
  let location ← tree.target path
  match tree.node? location with
  | some .folder => throw .isAFolder
  | _ => return tree.put location (.file content)

/-- Gives a file another path, in place of a file that is there. -/
def moveFile (tree : FileTree) (source target : Path) :
    Except FileFault FileTree := do
  let content ← tree.read source
  let sourceLocation ← tree.locate source
  let targetLocation ← tree.target target
  match tree.node? targetLocation with
  | some .folder => throw .isAFolder
  | _ =>
      return (tree.erase sourceLocation).put targetLocation (.file content)

/-- Creates the folders along the parts of a path that are not there. On a fault
the folders in front of it have been created. A folder is not created under a
name that only a single dot follows: the dot stands for what is there. -/
def createAlong (tree : FileTree) (location : Location) :
    List String → Except FileFault Unit × FileTree
  | [] => (.ok (), tree)
  | part :: rest =>
      if Path.isIdle part then
        tree.createAlong location rest
      else if part = ".." then
        tree.createAlong location.up rest
      else if maxNameBytes < part.utf8ByteSize then
        (.error .nameTooLong, tree)
      else
        match tree.node? (location ++ [part]) with
        | some .folder => tree.createAlong (location ++ [part]) rest
        | some (.file _) => (.error .alreadyExists, tree)
        | none =>
            if rest.all Path.isIdle && rest.contains "." then
              (.error .absent, tree)
            else
              (tree.put (location ++ [part]) .folder).createAlong
                (location ++ [part]) rest

/-- Creates a folder and all folders above it. The empty path needs none. -/
def createFolders (tree : FileTree) (path : Path) :
    Except FileFault Unit × FileTree :=
  if path.text = "" then
    (.ok (), tree)
  else
    match checkPath path with
    | .error fault => (.error fault, tree)
    | .ok () => tree.createAlong (startOf path) path.parts

/-- Removes a file, or a folder with everything in it. Nothing is returned when
nothing is there. -/
def remove? (tree : FileTree) (path : Path) : Option FileTree :=
  match tree.locate path with
  | .error _ => none
  | .ok location =>
      match tree.node? location with
      | none => none
      | some _ => some (tree.restrict (!location.isPrefixOf ·))

/-- The names in a folder and what they name, in no particular order. -/
def children (tree : FileTree) (folder : Location) : List (String × Node) :=
  tree.nodes.filterMap fun (location, node) =>
    match location.getLast? with
    | some name => if location.dropLast = folder then some (name, node) else none
    | none => none

/-- The names of the files in a folder that have the extension, in increasing
order of their code points. -/
def fileNames (tree : FileTree) (folder : Location) (extension : String) :
    List String :=
  let named := (tree.children folder).filterMap fun (name, node) =>
    match node with
    | .folder => none
    | .file _ => if nameExtension? name = some extension then some name else none
  named.mergeSort (· ≤ ·)

end FileTree

end LectureQuiz
