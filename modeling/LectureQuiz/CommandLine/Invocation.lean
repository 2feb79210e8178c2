import LectureQuiz.Path
import LectureQuiz.Text.Digit

/-!
# Invocations

An invocation is what the user asked for: a command with its options. Options
that are not given have their value from the configuration.
-/

namespace LectureQuiz.CommandLine

open LectureQuiz.Text

inductive Command where
  | ingest (index placeholders out : Option Path)
  | segment (transcripts out : Option Path)
  | generate (segments out : Option Path)
  | pack (banks : List Path) (out : Option Path) (module : Option UInt32)
  | run
  | createConfig
  | showConfig
  deriving DecidableEq, Repr

structure Invocation where
  /-- The configuration file to use instead of the user's. -/
  config : Option Path
  command : Command
  deriving DecidableEq, Repr

/-- The program, and the subcommands at which its arguments can arrive. -/
inductive Level where
  | program
  | ingest
  | segment
  | generate
  | pack
  | run
  | config
  | createConfig
  | showConfig
  deriving DecidableEq, Repr

namespace Level

/-- The subcommands of a level. -/
def sublevels : Level → List (String × Level)
  | .program =>
      [("ingest", .ingest), ("segment", .segment), ("generate", .generate),
        ("pack", .pack), ("run", .run), ("config", .config)]
  | .config => [("init", .createConfig), ("show", .showConfig)]
  | _ => []

end Level

/-- The options that have a value. -/
inductive OptionName where
  | config
  | logFormat
  | index
  | placeholders
  | transcripts
  | segments
  | bank
  | module
  | out
  deriving DecidableEq, Repr

namespace OptionName

/-- The option with a name at a level. Two options can be given at all levels. -/
def ofText? (level : Level) (name : String) : Option OptionName :=
  if name = "config" then some .config
  else if name = "log-format" then some .logFormat
  else
    let own := match level with
      | .ingest =>
          [("index", index), ("placeholders", placeholders), ("out", out)]
      | .segment => [("transcripts", transcripts), ("out", out)]
      | .generate => [("segments", segments), ("out", out)]
      | .pack => [("bank", bank), ("out", out), ("module", module)]
      | _ => []
    own.lookup name

end OptionName

/-- The options that were given at one level. -/
structure Options where
  config : Option Path := none
  logFormat : Option String := none
  index : Option Path := none
  placeholders : Option Path := none
  transcripts : Option Path := none
  segments : Option Path := none
  banks : List Path := []
  module : Option UInt32 := none
  out : Option Path := none
  deriving DecidableEq, Repr

/-- A path has to have text. -/
def path? (text : String) : Option Path :=
  if text = "" then none else some ⟨text⟩

/-- The format of log lines is only checked, because no command has log lines
among its results. -/
def logFormat? (text : String) : Option String :=
  if text = "text" ∨ text = "json" then some text else none

/-- A module number is written in digits after an optional plus sign; zero may
also have a minus sign. -/
def module? (text : String) : Option UInt32 :=
  match text.toList with
  | '-' :: digits =>
      if decimal? digits = some 0 then some 0 else none
  | digits => (boundedDecimal? UInt32.size digits).map Nat.toUInt32

/-- The value of an option that may be given once. -/
def once? {alpha : Type} (current given : Option alpha) : Option (Option alpha) :=
  match current, given with
  | none, some value => some (some value)
  | _, _ => none

namespace Options

/-- Gives an option a value, unless the value is none of the option's values or
the option has one already. Only banks may be given repeatedly. -/
def give? (options : Options) (name : OptionName) (value : String) :
    Option Options :=
  match name with
  | .config => (once? options.config (path? value)).map
      fun config => { options with config := config }
  | .logFormat => (once? options.logFormat (logFormat? value)).map
      fun logFormat => { options with logFormat := logFormat }
  | .index => (once? options.index (path? value)).map
      fun index => { options with index := index }
  | .placeholders => (once? options.placeholders (path? value)).map
      fun placeholders => { options with placeholders := placeholders }
  | .transcripts => (once? options.transcripts (path? value)).map
      fun transcripts => { options with transcripts := transcripts }
  | .segments => (once? options.segments (path? value)).map
      fun segments => { options with segments := segments }
  | .bank => (path? value).map
      fun bank => { options with banks := options.banks ++ [bank] }
  | .module => (once? options.module (module? value)).map
      fun module => { options with module := module }
  | .out => (once? options.out (path? value)).map
      fun out => { options with out := out }

/-- The command of a level that needs no subcommand. -/
def command? (options : Options) : Level → Option Command
  | .program => none
  | .ingest => some (.ingest options.index options.placeholders options.out)
  | .segment => some (.segment options.transcripts options.out)
  | .generate => some (.generate options.segments options.out)
  | .pack => some (.pack options.banks options.out options.module)
  | .run => some .run
  | .config => none
  | .createConfig => some .createConfig
  | .showConfig => some .showConfig

end Options

end LectureQuiz.CommandLine
