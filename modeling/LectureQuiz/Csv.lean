/-!
# Comma-separated records

A table is read byte by byte. Fields are parted by commas and records by line
breaks; blank lines hold no record. A field that starts with a quote goes on to
the next lone quote, and a doubled quote inside it stands for one. Anything after
the closing quote belongs to the field as it stands. Records may differ in
length.
-/

namespace LectureQuiz.Csv

/-- Where a reader of bytes stands. -/
inductive Mode where
  | betweenRecords
  | fieldStart
  | plain
  | quoted
  | afterQuote
  deriving DecidableEq, Repr

/-- What is done with a byte. -/
inductive Step where
  | skip (next : Mode)
  | keep (next : Mode)
  | endField
  | endRecord
  deriving DecidableEq, Repr

def comma : UInt8 := 0x2C

def quote : UInt8 := 0x22

def isBreak (byte : UInt8) : Bool :=
  byte == 0x0A || byte == 0x0D

def plainStep (byte : UInt8) : Step :=
  if byte = comma then .endField
  else if isBreak byte then .endRecord
  else .keep .plain

def Mode.step : Mode → UInt8 → Step
  | .betweenRecords, byte =>
      if isBreak byte then .skip .betweenRecords
      else if byte = quote then .skip .quoted
      else plainStep byte
  | .fieldStart, byte =>
      if byte = quote then .skip .quoted else plainStep byte
  | .plain, byte => plainStep byte
  | .quoted, byte =>
      if byte = quote then .skip .afterQuote else .keep .quoted
  | .afterQuote, byte =>
      if byte = quote then .keep .quoted else plainStep byte

/-- The records of the bytes, where `field` and `record` hold what was read of
the open field and record. The end of the bytes ends an open record. -/
def scan (mode : Mode) (field : List UInt8) (record : List (List UInt8)) :
    List UInt8 → List (List (List UInt8))
  | [] =>
      if mode = .betweenRecords then [] else [record ++ [field]]
  | byte :: rest =>
      match mode.step byte with
      | .skip next => scan next field record rest
      | .keep next => scan next (field ++ [byte]) record rest
      | .endField => scan .fieldStart [] (record ++ [field]) rest
      | .endRecord => (record ++ [field]) :: scan .betweenRecords [] [] rest

/-- The bytes without a byte order mark in front. -/
def dropMark : List UInt8 → List UInt8
  | 0xEF :: 0xBB :: 0xBF :: rest => rest
  | bytes => bytes

/-- The records of a table, each a list of the bytes of its fields. -/
def records (bytes : List UInt8) : List (List (List UInt8)) :=
  scan .betweenRecords [] [] (dropMark bytes)

end LectureQuiz.Csv
