import SoftwareCensus.Text.Case
import SoftwareCensus.Text.Category

/-!
# Log settings

How much is logged and in which form. Settings of the environment give way to options, and general
ones to those of the program.
-/

namespace SoftwareCensus

/-- The form of log lines. -/
inductive LogFormat where
  | human
  | jsonl
  deriving DecidableEq, Inhabited, Repr

namespace LogFormat

/-- The name of a form. -/
def name : LogFormat → String
  | human => "human"
  | jsonl => "jsonl"

/-- The form that a word stands for. -/
def ofWord (s : String) : Except String LogFormat :=
  let word := Text.asciiLower (Text.trim s)
  if ["jsonl", "json", "structured"].contains word then .ok jsonl
  else if ["human", "console", "pretty", "text"].contains word then .ok human
  else .error ("log format must be 'human' or 'jsonl', got '" ++ s ++ "'")

end LogFormat

/-- How much is logged. -/
inductive LogLevel where
  | trace
  | debug
  | info
  | warn
  | error
  | off
  deriving DecidableEq, Inhabited, Repr

namespace LogLevel

/-- All levels, from the most to the least. -/
def all : List LogLevel := [trace, debug, info, warn, error, off]

/-- The name of a level. -/
def name : LogLevel → String
  | trace => "trace"
  | debug => "debug"
  | info => "info"
  | warn => "warn"
  | error => "error"
  | off => "off"

/-- Whether a threshold lets lines of a level through. -/
def admits (threshold level : LogLevel) : Bool :=
  all.idxOf threshold ≤ all.idxOf level && threshold != off

/-- The level that a word stands for. -/
def ofWord (s : String) : Except String LogLevel :=
  let word := Text.asciiLower (Text.trim s)
  let word :=
    if word == "warning" then "warn"
    else if ["none", "quiet", "silent"].contains word then "off"
    else word
  match all.find? (·.name == word) with
  | some level => .ok level
  | none => .error ("unknown log level: " ++ s)

/-- The level that the options for more and for less output ask for. -/
def ofVerbosity (verbose : Nat) (quiet : Bool) : Option LogLevel :=
  if quiet then some error
  else match verbose with
    | 0 => none
    | 1 => some info
    | 2 => some debug
    | _ => some trace

end LogLevel

/-- The settings of the log. -/
structure LogConfig where
  format : LogFormat := .human
  level : LogLevel := .warn
  timestamps : Bool := true
  /-- A setting of the environment that is more than a level. -/
  directive : Option String := none
  deriving DecidableEq, Inhabited, Repr

namespace LogConfig

/-- The settings that an environment and the options ask for. -/
def ofEnvironment (lookup : String → Option String) (level : Option LogLevel)
    (format : Option LogFormat) : LogConfig :=
  let config : LogConfig := match lookup "RUST_LOG" with
    | none => {}
    | some raw => match LogLevel.ofWord raw with
      | .ok level => { level }
      | .error _ => { directive := some raw }
  let config := match (lookup "SWD_LOG").map LogLevel.ofWord with
    | some (.ok level) => { config with level, directive := none }
    | _ => config
  let config := match (lookup "SWD_LOG_FORMAT").map LogFormat.ofWord with
    | some (.ok format) => { config with format }
    | _ => config
  let config := match level with
    | some level => { config with level, directive := none }
    | none => config
  { config with format := format.getD config.format }

/-- What selects the lines that are logged. -/
def filterDirective (c : LogConfig) : String := c.directive.getD c.level.name

end LogConfig

end SoftwareCensus
