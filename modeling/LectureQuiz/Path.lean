import LectureQuiz.Text.Lines

/-!
# Paths

A path is a text whose parts are set apart by slashes. It is kept as it was
written, because messages and reports show it in that form.
-/

namespace LectureQuiz

open LectureQuiz.Text

structure Path where
  text : String
  deriving DecidableEq, Repr

instance : Inhabited Path := ⟨⟨""⟩⟩

namespace Path

/-- The parts between the slashes. Two slashes in a row have an empty part
between them, and so does a slash at either end. -/
def parts (path : Path) : List String :=
  (pieces '/' path.text.toList).map String.ofList

/-- Whether the path starts at the root of all folders. -/
def isAbsolute (path : Path) : Bool :=
  path.text.toList.head? == some '/'

/-- The path of a name inside a folder. An absolute name stands for itself. -/
def join (folder : Path) (name : String) : Path :=
  if (Path.mk name).isAbsolute then
    ⟨name⟩
  else if folder.text = "" ∨ folder.text.toList.getLast? = some '/' then
    ⟨folder.text ++ name⟩
  else
    ⟨folder.text ++ "/" ++ name⟩

/-- Whether a part leads nowhere: it is empty or a single dot. -/
def isIdle (part : String) : Bool :=
  part == "" || part == "."

/-- The parts up to the last one that leads somewhere. -/
def dropIdleEnd (parts : List String) : List String :=
  (parts.reverse.dropWhile isIdle).reverse

/-- The folder that a path is in, as far as its text tells: the path without its
last part and the slashes around it. -/
def parent? (path : Path) : Option Path :=
  match path.parts with
  | [] => none
  | first :: rest =>
      match dropIdleEnd rest with
      | [] => if first = "" then none else some ⟨""⟩
      | inner =>
          match dropIdleEnd inner.dropLast with
          | [] => some (if first = "" then ⟨"/"⟩ else ⟨first⟩)
          | outer => some ⟨"/".intercalate (first :: outer)⟩

end Path

/-- A file name cut at its last dot: the stem and the extension. A dot in front
of everything else cuts nothing. -/
def splitName (name : String) : String × Option String :=
  let reversed := name.toList.reverse
  match reversed.dropWhile (· != '.') with
  | _ :: before :: more =>
      (String.ofList (before :: more).reverse,
        some (String.ofList (reversed.takeWhile (· != '.')).reverse))
  | _ => (name, none)

/-- The name of a file without its extension. -/
def nameStem (name : String) : String :=
  (splitName name).1

/-- The extension of a file name. -/
def nameExtension? (name : String) : Option String :=
  (splitName name).2

end LectureQuiz
