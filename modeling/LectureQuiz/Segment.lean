import LectureQuiz.Json.Record

namespace LectureQuiz

structure Segment where
  videoId : String
  module : UInt32
  start : Option UInt32
  finish : Option UInt32
  text : String
  deriving DecidableEq, Repr

namespace Segment

def fieldNames : List String :=
  ["video_id", "module", "start", "end", "text"]

def toJson (segment : Segment) : Json :=
  .object
    [("video_id", .string segment.videoId),
      ("module", Json.ofWord32 segment.module),
      ("start", Json.ofOptional Json.ofWord32 segment.start),
      ("end", Json.ofOptional Json.ofWord32 segment.finish),
      ("text", .string segment.text)]

def ofJson? (value : Json) : Option Segment := do
  let fields ← value.fields? fieldNames
  let videoId ← fields.required? "video_id" Json.text?
  let module ← fields.withDefault? "module" 0 Json.word32?
  let start ← fields.withDefault? "start" none (Json.optional? Json.word32?)
  let finish ← fields.withDefault? "end" none (Json.optional? Json.word32?)
  let text ← fields.required? "text" Json.text?
  return ⟨videoId, module, start, finish, text⟩

end Segment

end LectureQuiz
