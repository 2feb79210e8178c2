import LectureQuiz.FileTree
import LectureQuiz.Item
import LectureQuiz.Rule

/-!
# Errors

Every way in which an operation of the library can fail, with one function that
puts it into words.
-/

namespace LectureQuiz

open LectureQuiz.Text

inductive Error where
  /-- Windows of no length were asked for. -/
  | zeroWindow
  /-- A configuration file is not TOML, or does not have the right fields. -/
  | malformedConfig (path : Path)
  /-- A file or folder that is needed is not there. -/
  | missingInput (path : Path)
  /-- A packed set has no item that can be used. -/
  | emptySet (path : Path)
  /-- The header of a video index is not text. -/
  | unreadableHeader
  /-- A file or folder is there but cannot be used. -/
  | inaccessible (path : Path)
  | item (fault : ItemFault)
  | rule (fault : RuleFault)
  /-- No quiz mode has the name, here in lower case. -/
  | unknownMode (name : String)
  /-- There is no item to pack, of one module if it was named. -/
  | nothingToPack (module : Option UInt32)
  /-- A position in a text does not fit into 64 bits. -/
  | positionOverflow
  deriving DecidableEq, Repr

namespace Error

def message : Error → String
  | .zeroWindow => "config error: segmenter.max_len must be positive"
  | .malformedConfig path => s!"config error: failed to parse {path.text}"
  | .missingInput path => s!"missing input: {path.text}"
  | .emptySet path => s!"empty result: no items in set {path.text}"
  | .unreadableHeader => "parse error: index header"
  | .inaccessible path => "I/O error at " ++ quotedPath path.text
  | .item fault => "validation error: " ++ fault.message
  | .rule fault => "validation error: " ++ fault.message
  | .unknownMode name =>
      s!"validation error: unknown set mode '{name}': " ++
        "expected 'practice' or 'memorize'"
  | .nothingToPack none => "no items to pack"
  | .nothingToPack (some module) => s!"no items to pack for module {module}"
  | .positionOverflow => "position out of range"

/-- The error of a fault at a path: what is not there is a missing input, and
every other fault is an inaccessible one. -/
def ofFault (path : Path) : FileFault → Error
  | .absent => .missingInput path
  | _ => .inaccessible path

end Error

end LectureQuiz
