import SoftwareCensus.Cli.Arguments
import SoftwareCensus.Cli.Help
import SoftwareCensus.Cli.Log
import SoftwareCensus.Config.Load
import SoftwareCensus.Document.Yaml.Printer

/-!
# Commands

What the program does with a command line: a function from what surrounds the program, its
environment, files and standard input, to what it prints and the code it ends with.
-/

namespace SoftwareCensus.Cli

/-! ## Surroundings and outcomes -/

/-- What surrounds a run of the program. -/
structure Surroundings where
  env : Config.Environment
  /-- The directory in which the user has the configuration of programs, if there is one. -/
  userBase : Option String
  files : Files.View
  /-- What standard input has. -/
  input : Except Files.ReadFault String
  runId : RunId
  /-- The time that documents carry. -/
  discoveryTime : String
  /-- The time that snapshots carry. -/
  timestamp : String
  /-- Whether failures can be shown with colours. -/
  colored : Bool := false
  /-- The number of levels of task lists inside task lists that there is room for. -/
  levels : Nat

/-- What a run of the program comes to. -/
structure Outcome where
  code : Nat
  output : String := ""
  /-- The failure that the run ended with, as it is printed. -/
  errors : String := ""
  /-- What the run tells its log, in order. -/
  log : List Log.Line := []
  /-- The path names that were looked up. -/
  consulted : List String := []
  deriving Inhabited

namespace Invocation

/-- The settings of the log that a command line and an environment ask for. -/
def logConfig (i : Invocation) (env : Config.Environment) : LogConfig :=
  LogConfig.ofEnvironment env (LogLevel.ofVerbosity (min i.verbosity 255) i.quiet) i.logFormat

/-! ## Printing -/

/-- A document, or what stands for it in the short form, as it is printed. -/
def rendered (i : Invocation) (d : Document) (summary : String) : String :=
  let text := match i.format with
    | .json => d.toPrettyJson
    | .yaml => Yaml.render d
    | .summary => summary
  Text.trimRight text ++ "\n"

/-- Ends a run with a failure. -/
def fail (i : Invocation) (s : Surroundings) (f : Failure) (log : List Log.Line) : Outcome :=
  let text := match i.format with
    | .json => (Document.map (f.structuredEntries [])).toPrettyJson
    | _ => f.human (s.colored && !i.colorless)
  { code := (ExitCode.forFailure f).number, errors := text ++ "\n", log }

/-! ## Configuration -/

/-- What the command line and the environment ask for; what the environment asks for counts as asked
for by the command line. -/
def wishes (i : Invocation) (sources : Sources) : Config.Wishes where
  directory := i.directory
  signatures := sources.signatures
  runSettings := sources.runSettings

/-- Loads the configuration. -/
def load (i : Invocation) (s : Surroundings) (sources : Sources) :
    Except Config.Error Config.Loaded := Config.load s.files s.env s.userBase (i.wishes sources)

/-- The engine that runs a configuration. -/
def engineOf (s : Surroundings) (l : Config.Loaded) : Discovery.Engine where
  registry := .builtin
  files := s.files
  options := l.options
  time := s.discoveryTime
  levels := s.levels

/-! ## Detecting software -/

/-- The settings of a run with what the command line adds to them. -/
def adjusted (r : Config.RunSettings) (included excluded : List String) (continueOnError : Bool) :
    Config.RunSettings :=
  { r with
    included := if included.isEmpty then r.included else some included
    excluded := r.excluded ++ excluded
    continueOnError := r.continueOnError || continueOnError }

/-- Reads an inventory from a file or, if its name is a dash, from standard input. -/
def readInventory (s : Surroundings) (name : String) : Except Failure Inventory :=
  if name == "-" then
    match s.input with
    | .ok text => (Inventory.ofText text).mapError (·.toFailure)
    | .error fault => .error (.io fault.message)
  else (Inventory.ofFile s.files name).mapError (·.toFailure)

/-- The text at a place of a document, or a mark if there is none. -/
def textAt (d : Option Document) (mark : String) : String := (d.bind Document.asStr?).getD mark

/-- The line for an instance in the short form. -/
def instanceLine (d : Document) : String :=
  let ports := ((d.field? "listening_ports").bind Document.asList?).getD []
  let version := ((d.field? "version").bind Document.asList?).bind (·.head?)
  textAt (d.field? "type") "?" ++ " pid=" ++
    textAt ((d.field? "process").bind (·.field? "pid")) "?" ++ " ports=[" ++
    ",".intercalate (ports.map Document.toJson) ++ "] version=" ++
    textAt (version.bind (·.field? "number")) "-"

/-- The line for an instance that failed in the short form. -/
def failureLine (d : Document) : String :=
  "dropped " ++ textAt (d.field? "type") "" ++ " pid=" ++ textAt (d.field? "pid") "" ++ ": " ++
    textAt (d.field? "error") ""

/-- The short form of a report. -/
def reportSummary (r : Discovery.Report) : String :=
  "\n".intercalate (r.software.map instanceLine ++ r.failures.map failureLine ++
    ["[" ++ r.runId.text ++ "] " ++ toString r.software.length ++ " instance(s), " ++
      toString r.failures.length ++ " dropped"])

/-- The document of a report, with everything or with the instances only. -/
def reportDocument (r : Discovery.Report) (full : Bool) : Document :=
  if full then r.toDocument else .ofFields [("software", .list r.software)]

/-- Detects the software of an inventory, with a configuration. -/
def discoverWith (i : Invocation) (s : Surroundings) (l : Config.Loaded) (inventory : String)
    (full : Bool) (log : List Log.Line) : Outcome :=
  match readInventory s inventory with
  | .error f => i.fail s f log
  | .ok inventory =>
    let (report, events) := (engineOf s l).runTraced inventory l.selected s.runId
    let log := log ++ events.flatMap Log.ofEvent
    let outcome := match report with
      | .error e => i.fail s e.toFailure log
      | .ok r =>
        { code := (ExitCode.forRun r.software.length).number
          output := i.rendered (reportDocument r full) (reportSummary r), log }
    { outcome with consulted := events.filterMap Discovery.Event.consulted? }

/-! ## Checking the configuration -/

/-- The document of a check that found nothing wrong. -/
def checkDocument (l : Config.Loaded) (timestamp : String) : Document :=
  .ofFields [("status", .str "ok"), ("signatures", .ofStrings l.selected.names),
    ("signatures_source", .str l.locations.signatures.origin.label),
    ("run_config_source", .str l.locations.runSettings.origin.label),
    ("pre_tasks", .int l.preTasks.length), ("post_tasks", .int l.postTasks.length),
    ("warnings", .ofStrings l.warnings), ("snapshot", l.snapshot.toDocument timestamp)]

/-- The short form of a check that found nothing wrong. -/
def checkSummary (l : Config.Loaded) : String :=
  "ok: " ++ toString l.selected.signatures.length ++ " signature(s) selected from " ++
    l.locations.signatures.origin.label ++
    String.join (l.warnings.map ("\nwarning: " ++ ·))

/-- Checks a configuration. -/
def checkWith (i : Invocation) (s : Surroundings) (l : Config.Loaded) (log : List Log.Line) :
    Outcome :=
  match (engineOf s l).check l.selected with
  | .error e => i.fail s e.toFailure log
  | .ok _ =>
    { code := ExitCode.clean.number
      output := i.rendered (checkDocument l s.timestamp) (checkSummary l), log }

/-! ## Listing plugins -/

/-- The document of all plugins. -/
def pluginsDocument : Document :=
  .ofFields [("plugins", .list (Registry.builtin.plugins.map (·.toDocument)))]

/-- The line for a plugin in the short form. -/
def pluginLine (p : Plugin) : String :=
  p.name ++ "".pushn ' ' (20 - p.name.length) ++ " " ++ p.description

/-- The short form of all plugins. -/
def pluginsSummary : String := "\n".intercalate (Registry.builtin.plugins.map pluginLine)

/-! ## Running -/

/-- Loads the configuration and goes on with it. -/
def withConfig (i : Invocation) (s : Surroundings) (sources : Sources)
    (act : Config.Loaded → List Log.Line → Outcome) : Outcome :=
  let outcome := match i.load s sources with
    | .error e => i.fail s e.toFailure []
    | .ok l => act l (l.warnings.map Log.ofWarning)
  let looked := Config.consulted s.files s.env s.userBase (i.wishes sources)
  { outcome with consulted := looked ++ outcome.consulted }

/-- Does what a command line asks for. -/
def run (i : Invocation) (s : Surroundings) : Outcome :=
  match i.command with
  | .discover inventory sources included excluded continueOnError full =>
    let outcome := i.withConfig s sources fun l log =>
      let settings := adjusted l.settings included excluded continueOnError
      i.discoverWith s { l with settings } inventory full log
    { outcome with consulted := inventory :: outcome.consulted }
  | .check sources => i.withConfig s sources (i.checkWith s)
  | .plugins =>
    { code := ExitCode.clean.number, output := i.rendered pluginsDocument pluginsSummary }

/-- The lines of a log that are written, each as it is written at a time. -/
def written (i : Invocation) (s : Surroundings) (log : List Log.Line) : List String :=
  let config := i.logConfig s.env
  let filter := Log.Filter.ofConfig config
  let run := if filter.admits Log.spanTarget .info then some s.runId else none
  (log.filter fun l => filter.admits l.target l.level).map fun l =>
    let run := if l.target == Log.configTarget then none else run
    match config.format with
    | .human => l.human s.timestamp run
    | .jsonl => l.json s.timestamp run

end Invocation

/-! ## The program -/

/-- What the program gives back. -/
structure Response where
  code : Nat
  output : String := ""
  /-- The lines of the log. -/
  log : List String := []
  /-- What is printed besides the log and the output. -/
  errors : String := ""
  /-- The path names that were looked up. -/
  consulted : List String := []
  deriving Inhabited

/-- The code of a command line that is misused. -/
def misuseCode : Nat := 2

/-- What the program gives back for a command line. -/
def respond (s : Surroundings) (words : List String) : Response :=
  match Invocation.read s.env words with
  | .error .misuse => { code := misuseCode, errors := misuseText }
  | .error (.help command) => { code := 0, output := helpText command }
  | .error (.version command) => { code := 0, output := versionText command }
  | .ok i =>
    let o := i.run s
    { code := o.code, output := o.output, log := i.written s o.log, errors := o.errors
      consulted := o.consulted }

end SoftwareCensus.Cli
