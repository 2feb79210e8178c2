import LectureQuiz.CommandLine.Arguments
import LectureQuiz.Main
import LectureQuiz.Proofs.Json.RoundTrip
import LectureQuiz.Proofs.Text.Pieces
import LectureQuiz.Proofs.Text.Normalized
import LectureQuiz.Proofs.Document
import LectureQuiz.Proofs.Json.Printable
import LectureQuiz.Proofs.Json.Record
import LectureQuiz.Proofs.FileTree.Name
import LectureQuiz.Proofs.Records
import LectureQuiz.Proofs.FileTree.Folder
import LectureQuiz.Proofs.FileTree.Entry
import LectureQuiz.Proofs.Job
import LectureQuiz.Proofs.Lookup
import LectureQuiz.Proofs.QuizSet
import LectureQuiz.Proofs.QuizSet.Groups
import LectureQuiz.Proofs.FileTree.Place
import LectureQuiz.Proofs.QuizSet.Pack
import LectureQuiz.Proofs.QuizSet.Listing
import LectureQuiz.Proofs.QuizSet.History
import LectureQuiz.Proofs.QuizSet.Load
import LectureQuiz.Proofs.QuizSet.Delivery
import LectureQuiz.Proofs.QuizSet.Success
import LectureQuiz.Proofs.QuizSet.Order
import LectureQuiz.Proofs.FileTree.Overlay
import LectureQuiz.Proofs.FileTree.Contents
import LectureQuiz.Proofs.FileTree.Parent
import LectureQuiz.Proofs.Stage.Documents
import LectureQuiz.Proofs.Stage.Files
import LectureQuiz.Proofs.VideoIndex
import LectureQuiz.Proofs.Stage.Ingest
import LectureQuiz.Proofs.Stage.Segment
import LectureQuiz.Proofs.Stage.Generate
import LectureQuiz.Proofs.Stage.Composition
import LectureQuiz.Proofs.Window
import LectureQuiz.Proofs.Rule
import LectureQuiz.Proofs.Bank
import LectureQuiz.Proofs.FileTree.Kept
import LectureQuiz.Proofs.Job.Orderly
import LectureQuiz.Proofs.Stage.Orderly
import LectureQuiz.Proofs.Job.Turn
import LectureQuiz.Proofs.Config
import LectureQuiz.Proofs.CommandLine.Stages
import LectureQuiz.Proofs.Window.Chunks
import LectureQuiz.Proofs.Span
import LectureQuiz.Proofs.FileTree.Update
import LectureQuiz.Proofs.Job.Repeat
import LectureQuiz.Proofs.Job.Relates
import LectureQuiz.Proofs.Stage.Inputs
import LectureQuiz.Proofs.Stage.Transcription
import LectureQuiz.Proofs.Stage.Plans
import LectureQuiz.Proofs.Stage.Containment
import LectureQuiz.Proofs.QuizSet.Repeat
import LectureQuiz.Proofs.QuizSet.OnlyPacked
import LectureQuiz.Proofs.Stage.Repeat
import LectureQuiz.Proofs.Rule.Firing
import LectureQuiz.Proofs.Bank.ByModule
import LectureQuiz.Proofs.Bank.Firings
import LectureQuiz.Proofs.Bank.SharedTags
import LectureQuiz.Proofs.Text.Lowercase
import LectureQuiz.Proofs.Rule.Keywords
import LectureQuiz.Proofs.Window.Range
import LectureQuiz.Proofs.VideoIndex.Resolution
import LectureQuiz.Proofs.Text.BlankEnds
import LectureQuiz.Proofs.VideoIndex.Rows
import LectureQuiz.Proofs.Document.Body
import LectureQuiz.Proofs.Job.Reading
import LectureQuiz.Proofs.Timestamp.Value
import LectureQuiz.Proofs.Span.Content
import LectureQuiz.Proofs.VideoIndex.ShortRows
import LectureQuiz.Proofs.Timestamp.Recognition
import LectureQuiz.Proofs.Text.Lossy
import LectureQuiz.Proofs.Text.NormalForm
import LectureQuiz.Proofs.Window.Fitting
import LectureQuiz.Proofs.Text.Slug.Runs
import LectureQuiz.Proofs.Records.Edited
import LectureQuiz.Proofs.QuizSet.Banks
import LectureQuiz.Proofs.QuizSet.Failure
import LectureQuiz.Proofs.Job.Failing
import LectureQuiz.Proofs.Stage.Interrupted
import LectureQuiz.Proofs.QuizSet.Drafts
import LectureQuiz.Proofs.Bank.Interleaving
import LectureQuiz.Proofs.Stage.ReadFirst
import LectureQuiz.Proofs.QuizSet.Partition
import LectureQuiz.Proofs.Stage.Streams
import LectureQuiz.Proofs.QuizSet.Counting
import LectureQuiz.Proofs.CommandLine.Summary
import LectureQuiz.Proofs.CommandLine.ShownConfig
