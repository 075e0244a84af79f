import SoftwareCensus.Cli.Logging
import SoftwareCensus.Discovery.Run

/-!
# The log of a run

What happens during a run, told as lines of a log, and which of these lines are written. A line of a
log for people may go over several lines of text, since what it tells may do so.
-/

namespace SoftwareCensus.Log

/-! ## Filters -/

/-- A threshold for the lines of some part of the program, or of all parts. -/
structure Directive where
  target : Option String := none
  threshold : LogLevel
  deriving DecidableEq, Inhabited, Repr

/-- The threshold that a word or a number stands for. -/
def threshold? (word : String) : Option LogLevel :=
  match word with
  | "0" => some .off
  | "1" => some .error
  | "2" => some .warn
  | "3" => some .info
  | "4" => some .debug
  | "5" => some .trace
  | word => LogLevel.all.find? (·.name == Text.asciiLower word)

/-- Whether a text names a part of the program. -/
def isTarget (s : String) : Bool :=
  s != "" && s.toList.all fun c => Text.isWordChar c || c == ':' || c == '-'

/-- Reads a directive: a threshold, a part of the program, or both. -/
def Directive.read? (s : String) : Option Directive :=
  match threshold? s with
  | some threshold => some { threshold }
  | none => match s.splitOn "=" with
    | [target] | [target, ""] =>
      if isTarget target then some { target := some target, threshold := .trace } else none
    | [target, word] =>
      if isTarget target then (threshold? word).map fun threshold => { target, threshold } else none
    | _ => none

/-- Which lines are written. -/
abbrev Filter := List Directive

namespace Filter

/-- The filter that the settings of a log ask for. -/
def ofConfig (c : LogConfig) : Filter :=
  let words := (c.filterDirective.splitOn ",").filter (· != "")
  match words.mapM Directive.read? with
  | some [] | none => [{ threshold := c.level }]
  | some directives => directives

/-- Whether a directive is about a part of the program. -/
def concerns (target : String) (d : Directive) : Bool :=
  d.target.all fun part => target.startsWith part

/-- How closely a directive says what it is about. -/
def closeness (d : Directive) : Nat := (d.target.map fun t => t.utf8ByteSize + 1).getD 0

/-- Whether lines of a level are written for a part of the program: the directive that is closest
to it decides, and of two that are equally close the later one. -/
def admits (f : Filter) (target : String) (level : LogLevel) : Bool :=
  let closest := (f.filter (concerns target)).foldl (fun (best : Option Directive) d =>
    match best with
    | some b => if closeness b ≤ closeness d then some d else best
    | none => some d) none
  closest.any fun d => d.threshold.admits level

end Filter

/-! ## Lines -/

/-- A line of a log. -/
structure Line where
  level : LogLevel
  target : String
  message : String
  fields : List (String × Document) := []
  deriving Inhabited

namespace Line

/-- What a line tells people. -/
def text (l : Line) : String :=
  l.fields.foldl (fun acc (name, d) => acc ++ " " ++ name ++ "=" ++ d.display) l.message

/-- A line for people, written at a time. -/
def human (l : Line) (time : String) (run : Option RunId) : String :=
  let level := l.level.name.toUpper
  let span := match run with
    | some id => "discovery\x7brun_id=" ++ id.text ++ "\x7d: "
    | none => ""
  time ++ " " ++ "".pushn ' ' (5 - level.length) ++ level ++ " " ++ span ++ l.text

/-- A line for programs, written at a time. -/
def json (l : Line) (time : String) (run : Option RunId) : String :=
  let span := match run with
    | some id => [("span", Document.map [("run_id", .str id.text), ("name", .str "discovery")])]
    | none => []
  (Document.map ([("timestamp", .str time), ("level", .str l.level.name.toUpper),
    ("fields", .map (("message", .str l.message) :: l.fields)), ("target", .str l.target)] ++
    span)).toJson

end Line

/-! ## What is told -/

/-- The part of the program that reads configuration. -/
def configTarget : String := "swd_config::load"

/-- The part of the program that detects instances. -/
def matcherTarget : String := "swd_core::matcher"

/-- The part of the program that runs tasks. -/
def tasksTarget : String := "swd_core::tasks::interpreter"

/-- The part of the program that finishes documents. -/
def finalizeTarget : String := "swd_core::finalize"

/-- The part of the program that goes through signatures. -/
def discoveryTarget : String := "swd_core::discovery"

/-- The part of the program that names runs. -/
def spanTarget : String := "swd_core::logging"

/-- The line for a warning about configuration. -/
def ofWarning (warning : String) : Line :=
  ⟨.warn, configTarget, "run configuration", [("warning", .str warning)]⟩

/-- The lines for what happens while tasks run. -/
def ofTaskEvent (event : Tasks.Event) : List Line :=
  let line (level : LogLevel) (message task : String) (fields : List (String × Document)) :
      List Line := [⟨level, tasksTarget, message, ("task", .str task) :: fields⟩]
  match event with
  | .included task path count =>
    line .debug "including tasks" task [("file", .str path), ("count", .int count)]
  | .registered task name => line .debug "registered result" task [("register", .str name)]
  | .registerIgnored task =>
    line .warn ("Ignoring 'register' attribute for plugin '" ++ task ++ "'") task []
  | .skipped task index => line .debug "skipped" task [("item_index", .int index)]
  | .ignored task index e => line .warn "ignoring task error" task
      [("item_index", .int index), ("error", .str e.message)]
  | .consulted _ | .called _ _ | .failed _ => []

/-- The lines for what becomes of an instance. -/
def ofVerdict (signature : String) (v : Discovery.Verdict) : List Line :=
  let pid : String × Document := ("pid", .str v.seed.representative.text)
  let completed : Line := ⟨.debug, discoveryTarget, "instance tasks completed", [pid]⟩
  match v.fate with
  | .kept _ => [completed]
  | .retracted => [completed,
      ⟨.debug, finalizeTarget, "instance retracted by its tasks", [("signature", .str signature)]⟩,
      ⟨.info, discoveryTarget, "instance retracted",
        [pid, ("claimed", .int v.seed.claimed.length)]⟩]
  | .failed _ e => [⟨.warn, discoveryTarget, "dropping instance after task failure",
      [pid, ("error", .str e.message)]⟩]

/-- The lines for what happens during a run. -/
def ofEvent (event : Discovery.Event) : List Line :=
  match event with
  | .started processes tcp udp signatures => [⟨.info, discoveryTarget, "starting discovery",
      [("processes", .int processes), ("tcp", .int tcp), ("udp", .int udp),
        ("signatures", .int signatures)]⟩]
  | .detected signature seed => [⟨.debug, matcherTarget, "software detected",
      [("signature", .str signature), ("pid", .str seed.representative.text),
        ("matched", .str seed.matched.text), ("claimed", .int seed.claimed.length)]⟩]
  | .task event => ofTaskEvent event
  | .judged signature verdict => ofVerdict signature verdict
  | .stopped seed e => [⟨.error, discoveryTarget, "instance tasks failed",
      [("pid", .str seed.representative.text), ("error", .str e.message)]⟩]
  | .finished software failures unclaimed => [⟨.info, discoveryTarget, "discovery finished",
      [("software", .int software), ("failures", .int failures), ("unclaimed", .int unclaimed)]⟩]

end SoftwareCensus.Log
