import StrategyDialect.Files.Path

/-!
# Arguments of the command line

A command is named first and followed by options.  An option takes its value from behind
an equals sign or from the next argument, unless it is a flag.

## Main definitions

* `Command`: what can be asked for
* `UsageError`: why arguments are refused
* `OptionReader`: the options of a command, read one argument at a time
* `Command.ofArguments`: the command that arguments ask for
-/

namespace StrategyDialect

/-- The options of a conversion. -/
structure ConvertOptions where
  strategy : Path
  /-- The file for the result, which is printed otherwise. -/
  out : Option Path
  dialect : Option Path
  /-- The name of a generated class, which follows the file name otherwise. -/
  className : Option Text
  /-- Whether a strategy with errors is converted. -/
  force : Bool
  /-- Whether the whole result is given as JSON. -/
  json : Bool

/-- The options of a batch. -/
structure BatchOptions where
  input : Path
  out : Path
  dialect : Option Path
  /-- Whether strategies with errors are converted. -/
  force : Bool
  /-- The file for the report, which is `report.json` in the output directory
  otherwise. -/
  report : Option Path

/-- What can be asked for. -/
inductive Command where
  /-- The verdict on a strategy. -/
  | validate (strategy : Path) (dialect : Option Path) (json : Bool)
  /-- The completed strategy. -/
  | convert (options : ConvertOptions)
  /-- The parameters of a strategy. -/
  | parameters (strategy : Path) (dialect : Option Path)
  /-- The conversion of a directory. -/
  | batch (options : BatchOptions)
  /-- The PowerLanguage dialect. -/
  | showDialect

/-- Why arguments are refused. -/
inductive UsageError where
  /-- There are no arguments. -/
  | nothingAsked
  /-- Help is asked for. -/
  | helpAsked
  /-- There is no such command. -/
  | unknownCommand
  /-- An argument is neither an option of the command nor a value. -/
  | unknownArgument
  /-- An option lacks its value, or the value is empty where a path is needed. -/
  | missingValue
  /-- An option is given twice. -/
  | repeatedOption
  /-- A flag is given a value. -/
  | unexpectedValue
  /-- A required option is missing. -/
  | missingOption
deriving DecidableEq

/-- The message for an error. -/
def UsageError.message : UsageError → Text
  | nothingAsked =>
    "a command is needed: validate, convert, params, batch or dialect".toList
  | helpAsked => "the commands are validate, convert, params, batch and dialect".toList
  | unknownCommand => "there is no such command".toList
  | unknownArgument => "there is an unexpected argument".toList
  | missingValue => "an option lacks its value".toList
  | repeatedOption => "an option is given twice".toList
  | unexpectedValue => "a flag is given a value".toList
  | missingOption => "a required option is missing".toList

/-- What an option takes. -/
inductive OptionKind where
  /-- No value. -/
  | flag
  /-- Any text. -/
  | text
  /-- A path, which is not empty. -/
  | path
deriving DecidableEq

/-- An option of a command. -/
structure OptionSpec where
  name : Text
  kind : OptionKind
  isRequired : Bool
deriving DecidableEq

/-- The options of a command that have been read.  The last one is accepted only when
the next option or the end of the arguments is reached. -/
structure OptionReader where
  specs : List OptionSpec
  /-- The options that have been accepted, with their values. -/
  given : List (Text × Text)
  /-- The option that waits to be accepted, with its value once that has been read. -/
  pending : Option (OptionSpec × Option Text)
  /-- Whether two hyphens have ended the options. -/
  isClosed : Bool

namespace OptionReader

/-- Accepts an option with its value. -/
def accept (r : OptionReader) (spec : OptionSpec) (value : Text) :
    Except UsageError OptionReader :=
  if (r.given.lookup spec.name).isSome then .error .repeatedOption
  else if spec.kind = .path ∧ value = [] then .error .missingValue
  else .ok { r with given := (spec.name, value) :: r.given, pending := none }

/-- Accepts the option that waits for it. -/
def settle (r : OptionReader) : Except UsageError OptionReader :=
  match r.pending with
  | none => .ok r
  | some (_, none) => .error .missingValue
  | some (spec, some value) => r.accept spec value

/-- Reads an option, given by its name and perhaps a value behind an equals sign. -/
def readOption (r : OptionReader) (name : Text) (value : Option Text) :
    Except UsageError OptionReader :=
  match r.specs.find? (·.name = name), value with
  | none, none => if name = "help".toList then do let _ ← r.settle; throw .helpAsked
    else .error .unknownArgument
  | none, some _ =>
    .error (if name = "help".toList then .unexpectedValue else .unknownArgument)
  | some spec, none => do
    let r ← r.settle
    if spec.kind = .flag then r.accept spec []
      else return { r with pending := some (spec, none) }
  | some spec, some value => do
    if spec.kind = .flag then throw .unexpectedValue
    (← r.settle).accept spec value

/-- Reads an argument that is no option: the value that the last option waits for. -/
def readValue (r : OptionReader) (argument : Text) : Except UsageError OptionReader :=
  match r.pending with
  | some (spec, none) => .ok { r with pending := some (spec, some argument) }
  | _ => .error .unknownArgument

/-- An option and the value behind its equals sign, if it has one. -/
def cutAtEquals (t : Text) : Text × Option Text :=
  match t.span (· != '=') with
  | (name, []) => (name, none)
  | (name, _ :: value) => (name, some value)

/-- Reads an argument. -/
def readArgument (r : OptionReader) (argument : Text) : Except UsageError OptionReader :=
  if r.isClosed then .error .unknownArgument
  else match argument with
    | ['-', '-'] => .ok { r with isClosed := true }
    | '-' :: '-' :: option =>
      let (name, value) := cutAtEquals option
      r.readOption name value
    | '-' :: 'h' :: _ => do
      let _ ← r.settle
      throw .helpAsked
    | '-' :: _ :: _ => .error .unknownArgument
    | argument => r.readValue argument

/-- Refuses options among which a required one is missing. -/
def checkRequired (r : OptionReader) : Except UsageError Unit :=
  if r.specs.all fun spec => !spec.isRequired
    || (r.given.lookup spec.name).isSome then .ok ()
  else .error .missingOption

/-- The options that the arguments of a command give. -/
def readAll (specs : List OptionSpec) (arguments : List Text) :
    Except UsageError OptionReader := do
  let r ← arguments.foldlM readArgument ⟨specs, [], none, false⟩
  let r ← r.settle
  r.checkRequired
  return r

/-- Whether a flag is given. -/
def hasFlag (r : OptionReader) (name : Text) : Bool :=
  (r.given.lookup name).isSome

/-- The path given by an option. -/
def path? (r : OptionReader) (name : Text) : Option Path :=
  (r.given.lookup name).map Path.mk

/-- The path given by an option that has to be there. -/
def path (r : OptionReader) (name : Text) : Except UsageError Path :=
  match r.path? name with
  | some p => .ok p
  | none => .error .missingOption

end OptionReader

namespace Command

/-- A required path. -/
def requiredPath (name : Text) : OptionSpec :=
  ⟨name, .path, true⟩

/-- A path that may be left out. -/
def optionalPath (name : Text) : OptionSpec :=
  ⟨name, .path, false⟩

/-- A flag. -/
def flag (name : Text) : OptionSpec :=
  ⟨name, .flag, false⟩

/-- A text that may be left out. -/
def optionalText (name : Text) : OptionSpec :=
  ⟨name, .text, false⟩

/-- The command for the verdict on a strategy. -/
def readValidate (arguments : List Text) : Except UsageError Command := do
  let r ← OptionReader.readAll
    [requiredPath "strategy".toList, optionalPath "dialect".toList,
      flag "json".toList] arguments
  return .validate (← r.path "strategy".toList) (r.path? "dialect".toList)
    (r.hasFlag "json".toList)

/-- The command for a completed strategy. -/
def readConvert (arguments : List Text) : Except UsageError Command := do
  let r ← OptionReader.readAll
    [requiredPath "strategy".toList, optionalPath "out".toList,
      optionalPath "dialect".toList, optionalText "class-name".toList,
      flag "force".toList, flag "json".toList] arguments
  return .convert
    { strategy := ← r.path "strategy".toList
      out := r.path? "out".toList
      dialect := r.path? "dialect".toList
      className := r.given.lookup "class-name".toList
      force := r.hasFlag "force".toList
      json := r.hasFlag "json".toList }

/-- The command for the parameters of a strategy. -/
def readParameters (arguments : List Text) : Except UsageError Command := do
  let r ← OptionReader.readAll
    [requiredPath "strategy".toList, optionalPath "dialect".toList] arguments
  return .parameters (← r.path "strategy".toList) (r.path? "dialect".toList)

/-- The command for a batch. -/
def readBatch (arguments : List Text) : Except UsageError Command := do
  let r ← OptionReader.readAll
    [requiredPath "input".toList, requiredPath "out".toList,
      optionalPath "dialect".toList, flag "force".toList,
      optionalPath "report".toList] arguments
  return .batch
    { input := ← r.path "input".toList
      out := ← r.path "out".toList
      dialect := r.path? "dialect".toList
      force := r.hasFlag "force".toList
      report := r.path? "report".toList }

/-- The command for the PowerLanguage dialect. -/
def readDialect (arguments : List Text) : Except UsageError Command := do
  let _ ← OptionReader.readAll [] arguments
  return .showDialect

/-- The commands by their names. -/
def readers : List (Text × (List Text → Except UsageError Command)) :=
  [("validate".toList, readValidate), ("convert".toList, readConvert),
   ("params".toList, readParameters), ("batch".toList, readBatch),
   ("dialect".toList, readDialect)]

/-- Whether an argument names a command, `help` included. -/
def isName (argument : Text) : Bool :=
  argument = "help".toList || (readers.lookup argument).isSome

/-- What to report if help is asked for the commands with the given names.  No command
has commands of its own. -/
def helpOn : (names : List Text) → UsageError
  | [] => .helpAsked
  | [name] => if isName name then .helpAsked else .unknownCommand
  | _ :: _ :: _ => .unknownCommand

/-- The command that arguments ask for. -/
def ofArguments : (arguments : List Text) → Except UsageError Command
  | [] => .error .nothingAsked
  | first :: rest =>
    match first with
    | ['-', '-'] =>
      match rest with
      | [] => .error .nothingAsked
      | second :: _ =>
        .error (if isName second then .unknownArgument else .unknownCommand)
    | '-' :: '-' :: option =>
      .error <| match OptionReader.cutAtEquals option with
        | (name, value) =>
          if name = "help".toList then if value.isSome then .unexpectedValue
            else .helpAsked
          else .unknownArgument
    | '-' :: 'h' :: _ => .error .helpAsked
    | '-' :: _ :: _ => .error .unknownArgument
    | name =>
      if name = "help".toList then .error (helpOn rest)
      else match readers.lookup name with
        | some read => read rest
        | none => .error .unknownCommand

end Command

end StrategyDialect
