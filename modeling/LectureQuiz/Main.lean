import LectureQuiz.CommandLine.Arguments
import LectureQuiz.CommandLine.Command

/-!
# The program

The program runs one command on the files that are listed on its standard input,
one path a line, where the path of a folder ends with a slash. What the command
changes is written back when it has ended.
-/

namespace LectureQuiz.CommandLine

/-- Adds what is at a listed path to a tree. What cannot be read is left out. -/
def addListed (tree : FileTree) (line : String) : IO FileTree := do
  let path : Path := ⟨line⟩
  if line.endsWith "/" then
    return (tree.createFolders path).2
  try
    let content ← IO.FS.readBinFile line
    let withFolder := match path.parent? with
      | none => tree
      | some folder => (tree.createFolders folder).2
    return (withFolder.write path content).toOption.getD withFolder
  catch _ =>
    return tree

/-- The paths that are listed on standard input. -/
partial def listedPaths (input : IO.FS.Stream) : IO (List String) := do
  let line ← input.getLine
  if line.isEmpty then
    return []
  let path := line.trimAscii.toString
  let others ← listedPaths input
  return if path.isEmpty then others else path :: others

/-- Writes what a command changed, folders before what is in them. -/
def writeChanges (before after : FileTree) : IO Unit := do
  for (location, _) in before.nodes do
    if (after.node? location).isNone then
      IO.FS.removeFile location.text
  let nodes := after.nodes.mergeSort fun first second =>
    first.1.length ≤ second.1.length
  for (location, node) in nodes do
    if before.node? location != some node then
      match node with
      | .folder => IO.FS.createDirAll location.text
      | .file content => IO.FS.writeBinFile location.text content

/-- Prints a line; `tenths` are the tenths of a second that the command took. -/
def printLine (tenths : Nat) : OutputLine → IO Unit
  | .text line => IO.println line
  | .elapsed => IO.println s!"  Time:      {tenths / 10}.{tenths % 10}s"

/-- The commands, for a user who asked for help or was not understood. -/
def usage : String :=
  "Usage: qbank [--config FILE] [--log-format text|json] [-v] COMMAND\n" ++
  "Commands: ingest, segment, generate, pack, run, config init, config show"

/-- Runs a command and tells its exit code. -/
def execute (invocation : Invocation) : IO UInt32 := do
  let home := (← IO.getEnv "HOME").getD ""
  let listed ← listedPaths (← IO.getStdin)
  let before ← listed.foldlM addListed FileTree.empty
  let start ← IO.monoMsNow
  let (outcome, session) := (invocation.run ⟨home⟩).runOn before
  writeChanges before session.files
  let finish ← IO.monoMsNow
  match outcome with
  | .ok lines =>
      lines.forM (printLine ((finish - start) / 100))
      return 0
  | .error error =>
      IO.eprintln s!"Error: {error.message}"
      return 1

end LectureQuiz.CommandLine

open LectureQuiz.CommandLine in
def main (arguments : List String) : IO UInt32 := do
  match readArguments (← IO.getEnv "QBANK_CONFIG") arguments with
  | .ok invocation => execute invocation
  | .error .information =>
      IO.println usage
      return 0
  | .error .misuse =>
      IO.eprintln usage
      return 2
