import LectureQuiz.CommandLine.Invocation

/-!
# Reading arguments

Arguments are read from the left, and the first one that is wrong or asks for
help decides. The value of an option that stands in an argument of its own is
looked at when the next option of its level is met or the level ends.
-/

namespace LectureQuiz.CommandLine

/-- Why arguments ask for no command. -/
inductive Refusal where
  /-- They are not understood. -/
  | misuse
  /-- They ask for help or for the version. -/
  | information
  deriving DecidableEq, Repr

/-- What was read at a level: the options, and the last one if its value was not
looked at, with the value if that was read already. -/
structure Reading where
  options : Options := {}
  pending : Option (OptionName × Option String) := none
  deriving DecidableEq, Repr

namespace Reading

def give (reading : Reading) (name : OptionName) (value : String) :
    Except Refusal Reading :=
  match reading.options.give? name value with
  | some options => .ok ⟨options, none⟩
  | none => .error .misuse

/-- Looks at the value of the last option. -/
def settle (reading : Reading) : Except Refusal Reading :=
  match reading.pending with
  | none => .ok reading
  | some (_, none) => .error .misuse
  | some (name, some value) => reading.give name value

/-- The option whose value has to be the next argument. -/
def awaiting? (reading : Reading) : Option OptionName :=
  match reading.pending with
  | some (name, none) => some name
  | _ => none

end Reading

/-- Whether an argument can only be an option. -/
def isOptionLike (argument : String) : Bool :=
  argument.startsWith "-" && argument != "-"

/-- The name and the value of an option that starts with two dashes, from behind
the dashes. -/
def splitOption (text : List Char) : String × Option String :=
  let name := String.ofList (text.takeWhile (· != '='))
  match text.dropWhile (· != '=') with
  | [] => (name, none)
  | _ :: value => (name, some (String.ofList value))

/-- Reads an option that starts with two dashes, from behind them. -/
def readLong (level : Level) (reading : Reading) (text : List Char) :
    Except Refusal Reading := do
  let settled ← reading.settle
  match splitOption text with
  | (name, none) =>
      if name = "verbose" then
        return settled
      else if name = "help" ∨ (name = "version" ∧ level = .program) then
        throw .information
      else
        match OptionName.ofText? level name with
        | some option => return { settled with pending := some (option, none) }
        | none => throw .misuse
  | (name, some value) =>
      match OptionName.ofText? level name with
      | some option => settled.give option value
      | none => throw .misuse

/-- Reads letters behind one dash. -/
def readShort (level : Level) (reading : Reading) (letters : List Char) :
    Except Refusal Reading := do
  let settled ← reading.settle
  match letters.dropWhile (· == 'v') with
  | [] => return settled
  | letter :: _ =>
      if letter = 'h' ∨ (letter = 'V' ∧ level = .program) then
        throw .information
      else
        throw .misuse

/-- The level of a subcommand. -/
def Level.enter? (level : Level) (name : String) : Option Level :=
  level.sublevels.lookup name

/-- Whether a level has a subcommand that prints help. -/
def Level.hasHelp (level : Level) : Bool :=
  !level.sublevels.isEmpty

/-- Whether help can be printed on the subcommands that follow each other. Help
itself is the last of them if it is one. -/
def helpsWith (level : Level) : List String → Bool
  | [] => true
  | name :: rest =>
      match level.enter? name with
      | some sublevel => helpsWith sublevel rest
      | none => name == "help" && level.hasHelp && rest.isEmpty

/-- The value of the environment has to be a path where the option that it
stands in for was not given. -/
def checkDefault (environment : Option String) (options : Options) :
    Except Refusal Unit :=
  if options.config = none ∧ environment = some "" then .error .misuse
  else .ok ()

/-- Ends a level, where `inner` is the invocation of its subcommand. -/
def finishLevel
    (environment : Option String) (level : Level) (reading : Reading)
    (inner : Option Invocation) : Except Refusal Invocation := do
  let settled ← reading.settle
  checkDefault environment settled.options
  match inner with
  | some invocation =>
      return { invocation with
        config := invocation.config.or settled.options.config }
  | none =>
      match settled.options.command? level with
      | some command => return ⟨settled.options.config, command⟩
      | none => throw .misuse

/-- Reads the arguments of a level, where `reading` holds what was read of them.
The value of the environment for the configuration file is only checked. -/
def readLevel
    (environment : Option String) (level : Level) (reading : Reading) :
    List String → Except Refusal Invocation
  | [] => finishLevel environment level reading none
  | argument :: rest =>
      match reading.awaiting? with
      | some name =>
          if isOptionLike argument then
            .error .misuse
          else
            readLevel environment level
              { reading with pending := some (name, some argument) } rest
      | none =>
          match level.enter? argument with
          | some sublevel => do
              let inner ← readLevel environment sublevel {} rest
              finishLevel environment level reading (some inner)
          | none =>
              if argument = "help" ∧ level.hasHelp then
                .error (if helpsWith level rest then .information else .misuse)
              else
                match argument.toList with
                | ['-', '-'] =>
                    if rest = [] then finishLevel environment level reading none
                    else .error .misuse
                | '-' :: '-' :: text => do
                    readLevel environment level (← readLong level reading text) rest
                | '-' :: letter :: letters => do
                    let next ← readShort level reading (letter :: letters)
                    readLevel environment level next rest
                | _ => .error .misuse

/-- The invocation that arguments ask for, where `environment` names the
configuration file unless an option does. -/
def readArguments (environment : Option String) (arguments : List String) :
    Except Refusal Invocation := do
  let invocation ← readLevel environment .program {} arguments
  return { invocation with
    config := invocation.config.or (environment.map Path.mk) }

end LectureQuiz.CommandLine
