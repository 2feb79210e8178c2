import LectureQuiz.Config.Reader
import LectureQuiz.Config.Writer
import LectureQuiz.Job

namespace LectureQuiz

namespace Config

/-- The folder of the user's configuration. -/
def userFolder (home : Path) : Path :=
  home.join ".qbank"

/-- The user's configuration file. -/
def userFile (home : Path) : Path :=
  (userFolder home).join "qbank.toml"

/-- The configuration in a file. -/
def load (path : Path) : Job Config := do
  match parse? (← Job.readText path) with
  | none => throw (.malformedConfig path)
  | some config => do
      config.check
      return config

/-- The configuration in the user's file, or the default one when there is no
such file. -/
def loadUser (home : Path) : Job Config := do
  if (← Job.files).pathExists (userFile home) then
    load (userFile home)
  else
    return {}

/-- Writes the default configuration to the user's file, whose path is
returned. -/
def writeDefault (home : Path) : Job Path := do
  Job.createFolders (userFolder home)
  Job.writeText (userFile home) (render {})
  return userFile home

end Config

end LectureQuiz
