import SoftwareCensus.Cli.ExitCode
import SoftwareCensus.Cli.Logging
import SoftwareCensus.Config.Sources

/-!
# The command line

What the words of a command line ask for. Words are read from left to right: options with one or two
dashes, their values, and the name of a command, behind which come the options of that command.
What an option accepts is checked when it is read, and the first thing wrong ends the reading. The
environment stands in for some options that are not given.
-/

namespace SoftwareCensus.Cli

/-! ## Options -/

/-- What an option does with its occurrences. -/
inductive OptionKind where
  /-- It has no value and is given at most once. -/
  | flag
  /-- It has no value, and what counts is how often it is given. -/
  | counter
  /-- It has a value and is given at most once. -/
  | single (accepts : String → Bool)
  /-- It has a value and is given as often as wanted. -/
  | many
  | help
  | version

/-- An option. -/
structure OptionSpec where
  name : String
  short : Option Char := none
  kind : OptionKind

/-- Whether a text is one of some words. -/
def isOneOf (words : List String) (s : String) : Bool := words.contains s

/-- Options that all commands have, and that can also stand before the command. -/
def globalOptions : List OptionSpec :=
  [{ name := "config", kind := .single fun _ => true },
    { name := "format", short := some 'f',
      kind := .single (isOneOf (OutputFormat.all.map (·.name))) },
    { name := "verbose", short := some 'v', kind := .counter },
    { name := "quiet", short := some 'q', kind := .flag },
    { name := "log-format",
      kind := .single (isOneOf [LogFormat.human.name, LogFormat.jsonl.name]) },
    { name := "no-color", kind := .flag },
    { name := "help", short := some 'h', kind := .help },
    { name := "version", short := some 'V', kind := .version }]

/-- Options for files of configuration, whose names are not empty. -/
def sourceOptions : List OptionSpec :=
  [{ name := "signatures", kind := .single (· != "") },
    { name := "run-config", kind := .single (· != "") }]

/-- Options of the command that detects software. -/
def discoverOptions : List OptionSpec :=
  [{ name := "inventory", short := some 'i', kind := .single fun _ => true }] ++ sourceOptions ++
    [{ name := "include", kind := .many }, { name := "exclude", kind := .many },
      { name := "continue-on-error", kind := .flag }, { name := "full", kind := .flag }]

/-! ## Reading -/

/-- Why a command line asks for no command. -/
inductive Stop where
  | misuse
  /-- Help is asked for, for a command or for the program. -/
  | help (command : Option String)
  | version (command : Option String)
  deriving DecidableEq, Inhabited, Repr

/-- The values of the options that are given, in order. Options without values have empty ones. -/
abbrev Occurrences := List (String × String)

/-- The values of an option. -/
def Occurrences.values (o : Occurrences) (name : String) : List String :=
  (o.filter (·.1 == name)).map (·.2)

/-- The value of an option that is given at most once. -/
def Occurrences.value? (o : Occurrences) (name : String) : Option String :=
  (Occurrences.values o name).head?

/-- Whether an option is given. -/
def Occurrences.has (o : Occurrences) (name : String) : Bool := o.any (·.1 == name)

/-- A place at which options can stand: the command before it, if any, and the options. -/
structure Level where
  command : Option String
  options : List OptionSpec

namespace Level

/-- Whether an option has values. -/
def takesValue (o : OptionSpec) : Bool :=
  match o.kind with
  | .single _ | .many => true
  | _ => false

/-- Notes that an option is given. -/
def note (l : Level) (seen : Occurrences) (o : OptionSpec) (value : String) :
    Except Stop Occurrences :=
  let noted := seen ++ [(o.name, value)]
  match o.kind with
  | .flag => if seen.has o.name then .error .misuse else .ok noted
  | .counter | .many => .ok noted
  | .single accepts => if seen.has o.name || !accepts value then .error .misuse else .ok noted
  | .help => .error (.help l.command)
  | .version => .error (.version l.command)

/-- What is still open after a word: nothing, or the value of an option. -/
inductive Awaiting where
  | nothing
  | value (o : OptionSpec)

/-- Reads the letters of a word behind a single dash. -/
def readLetters (l : Level) (seen : Occurrences) :
    List Char → Except Stop (Occurrences × Awaiting)
  | [] => .ok (seen, .nothing)
  | c :: rest =>
    match l.options.find? (·.short == some c) with
    | none => .error .misuse
    | some o =>
      if takesValue o then
        match rest with
        | [] => .ok (seen, .value o)
        | '=' :: value => (l.note seen o (String.ofList value)).map (·, .nothing)
        | value => (l.note seen o (String.ofList value)).map (·, .nothing)
      else do
        readLetters l (← l.note seen o "") rest

/-- Reads a word behind two dashes. -/
def readName (l : Level) (seen : Occurrences) (word : List Char) :
    Except Stop (Occurrences × Awaiting) :=
  let (name, rest) := word.span (· != '=')
  match l.options.find? (·.name == String.ofList name) with
  | none => .error .misuse
  | some o =>
    match takesValue o, rest with
    | true, [] => .ok (seen, .value o)
    | true, _ :: value => (l.note seen o (String.ofList value)).map (·, .nothing)
    | false, [] => (l.note seen o "").map (·, .nothing)
    | false, _ => .error .misuse

/-- Reads words up to the first that is no option and no value of one: what is given, and the words
from there on. Behind two dashes alone nothing else is an option. -/
def read (l : Level) (seen : Occurrences) : List String → Except Stop (Occurrences × List String)
  | [] => .ok (seen, [])
  | word :: rest =>
    match word.toList with
    | ['-', '-'] => if rest.isEmpty then .ok (seen, []) else .error .misuse
    | '-' :: c :: cs => do
      let (seen, awaiting) ← if c == '-' then l.readName seen cs else l.readLetters seen (c :: cs)
      match awaiting, rest with
      | .nothing, rest => read l seen rest
      | .value _, [] => .error .misuse
      | .value o, value :: rest =>
        if value.startsWith "-" && value != "-" then .error .misuse
        else do read l (← l.note seen o value) rest
    | _ => .ok (seen, word :: rest)

end Level

/-! ## Commands -/

/-- The files of configuration that a command line asks for. -/
structure Sources where
  signatures : Option String := none
  runSettings : Option String := none
  deriving DecidableEq, Inhabited, Repr

/-- What a command line asks for. -/
inductive Command where
  /-- Detect the software of an inventory, that is a file or, with a dash, standard input. -/
  | discover (inventory : String) (sources : Sources) (included excluded : List String)
      (continueOnError full : Bool)
  /-- Check the configuration. -/
  | check (sources : Sources)
  /-- List the plugins. -/
  | plugins
  deriving DecidableEq, Inhabited, Repr

/-- A command and what all commands can be told. -/
structure Invocation where
  command : Command
  directory : Option String := none
  format : OutputFormat := .json
  verbosity : Nat := 0
  quiet : Bool := false
  logFormat : Option LogFormat := none
  colorless : Bool := false
  deriving DecidableEq, Inhabited, Repr

/-- The names of the commands, with the options of each. -/
def commands : List (String × List OptionSpec) :=
  [("discover", discoverOptions), ("check", sourceOptions), ("plugins", [])]

/-- What is given for an option, or else what a variable of the environment is bound to. -/
def orVariable (env : Config.Environment) (given : Occurrences) (name variableName : String) :
    Option String :=
  match given.value? name with
  | some value => some value
  | none => env variableName

/-- The files of configuration that are asked for; their names must not be empty. -/
def sourcesOf (env : Config.Environment) (given : Occurrences) : Except Stop Sources :=
  let sources : Sources := {
    signatures := orVariable env given "signatures" Config.signaturesVariable
    runSettings := orVariable env given "run-config" Config.runSettingsVariable }
  if sources.signatures == some "" || sources.runSettings == some "" then .error .misuse
  else .ok sources

/-- The command of a name, with the options that are given for it. -/
def commandOf (env : Config.Environment) (name : String) (given : Occurrences) :
    Except Stop Command := do
  match name with
  | "discover" =>
    let sources ← sourcesOf env given
    match given.value? "inventory" with
    | none => throw .misuse
    | some inventory =>
      let included := given.values "include"
      let excluded := given.values "exclude"
      return .discover inventory sources included excluded (given.has "continue-on-error")
        (given.has "full")
  | "check" => return .check (← sourcesOf env given)
  | _ => return .plugins

/-- The help that is asked for by words behind the word for help. -/
def helpOf (rest : List String) : Stop :=
  match rest with
  | [] => .help none
  | [name] =>
    if name == "help" then .help none
    else if commands.any (·.1 == name) then .help (some name) else .misuse
  | _ => .misuse

/-- Reads a command line. Global options behind the command win over those before it. -/
def Invocation.read (env : Config.Environment) (words : List String) : Except Stop Invocation := do
  let (before, rest) ← Level.read ⟨none, globalOptions⟩ [] words
  match rest with
  | [] => throw .misuse
  | "help" :: rest => throw (helpOf rest)
  | name :: rest =>
    match commands.find? (·.1 == name) with
    | none => throw .misuse
    | some (_, options) =>
      let (given, rest) ← Level.read ⟨some name, globalOptions ++ options⟩ [] rest
      if !rest.isEmpty then throw .misuse
      let command ← commandOf env name given
      let either (name : String) : List String :=
        if given.has name then given.values name else before.values name
      let word? (name : String) : Option String := (either name).head?
      return {
        command
        directory := match word? "config" with
          | some directory => some directory
          | none => env Config.directoryVariable
        format := ((word? "format").bind fun s => OutputFormat.all.find? (·.name == s)).getD .json
        verbosity := (either "verbose").length
        quiet := !(either "quiet").isEmpty
        logFormat := (word? "log-format").map fun s =>
          if s == LogFormat.jsonl.name then .jsonl else .human
        colorless := !(either "no-color").isEmpty }

end SoftwareCensus.Cli
