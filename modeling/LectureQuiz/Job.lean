import LectureQuiz.Error
import LectureQuiz.Records
import LectureQuiz.Text.Utf8

/-!
# Jobs

A job reads and changes a tree of files, reports its progress, and may fail. A
job that fails leaves what it changed and reported up to then.
-/

namespace LectureQuiz

open LectureQuiz.Text

/-- What a job tells while it runs. -/
inductive Progress where
  | phase (name : String)
  /-- One more input file is done: `current` out of `total`. -/
  | file (name : String) (current total : Nat)
  | done
  deriving DecidableEq, Repr

/-- The files that a job works on, and its reports in order. -/
structure Session where
  files : FileTree
  progress : List Progress

abbrev Job := ExceptT Error (StateM Session)

namespace Job

/-- The outcome of a job on a tree of files, and the session that it leaves. -/
def runOn {alpha : Type} (job : Job alpha) (files : FileTree) :
    Except Error alpha × Session :=
  (job.run.run ⟨files, []⟩ : Except Error alpha × Session)

def files : Job FileTree := do
  return (← get).files

def setFiles (files : FileTree) : Job Unit :=
  modify fun session => { session with files := files }

def report (event : Progress) : Job Unit :=
  modify fun session => { session with progress := session.progress ++ [event] }

/-- What a tree of files gave for a path, or the error of its fault. -/
def atPath {alpha : Type} (path : Path) (result : Except FileFault alpha) :
    Job alpha :=
  match result with
  | .ok value => return value
  | .error fault => throw (Error.ofFault path fault)

def readBytes (path : Path) : Job ByteArray := do
  atPath path ((← files).read path)

/-- The text of a file. Bytes that encode no text make it inaccessible. -/
def readText (path : Path) : Job String := do
  match text? (← readBytes path) with
  | some text => return text
  | none => throw (.inaccessible path)

/-- The records of a file. -/
def readRecords (alpha : Type) [Record alpha] (path : Path) :
    Job (List alpha) := do
  return (Records.parse (← readText path)).records

def createFolders (path : Path) : Job Unit := do
  let (outcome, changed) := (← files).createFolders path
  setFiles changed
  atPath path outcome

def writeText (path : Path) (content : String) : Job Unit := do
  setFiles (← atPath path ((← files).write path content.toUTF8))

/-- Moves a file. A fault is an error at the place that it is moved to. -/
def moveFile (source target : Path) : Job Unit := do
  setFiles (← atPath target ((← files).moveFile source target))

/-- Writes a file of records and the folders that lead to it. -/
def writeRecords {alpha : Type} [Record alpha]
    (path : Path) (records : List alpha) : Job Unit := do
  match path.parent? with
  | none => pure ()
  | some folder => createFolders folder
  writeText path (Records.render records)

end Job

end LectureQuiz
