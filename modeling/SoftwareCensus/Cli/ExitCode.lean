import SoftwareCensus.Failure

/-!
# Exit codes and output formats

How a run of the program ended, as a number, and the forms in which results are printed.
-/

namespace SoftwareCensus

/-- How a run of the program ended. -/
inductive ExitCode where
  /-- Nothing was found. -/
  | clean
  | softwareFound
  | argsError
  | configError
  | internalError
  | ioError
  | timeoutError
  | taskError
  deriving DecidableEq, Inhabited, Repr

namespace ExitCode

/-- All exit codes in ascending order. -/
def all : List ExitCode :=
  [clean, softwareFound, argsError, configError, internalError, ioError, timeoutError, taskError]

/-- The number of an exit code. -/
def number : ExitCode → Nat
  | clean => 0
  | softwareFound => 1
  | argsError => 10
  | configError => 11
  | internalError => 20
  | ioError => 21
  | timeoutError => 22
  | taskError => 23

/-- The name of an exit code. -/
def name : ExitCode → String
  | clean => "OK_CLEAN"
  | softwareFound => "OK_FOUND"
  | argsError => "ERR_ARGS"
  | configError => "ERR_CONFIG"
  | internalError => "ERR_INTERNAL"
  | ioError => "ERR_IO"
  | timeoutError => "ERR_TIMEOUT"
  | taskError => "ERR_TASK"

/-- The text of an exit code. -/
def text (c : ExitCode) : String := c.name ++ " (" ++ toString c.number ++ ")"

/-- Whether the run was completed. -/
def isSuccess : ExitCode → Bool
  | clean | softwareFound => true
  | _ => false

/-- Whether the user or the environment is to blame. -/
def isUserError (c : ExitCode) : Bool := 10 ≤ c.number && c.number < 20

/-- Whether something went wrong. -/
def isError (c : ExitCode) : Bool := 10 ≤ c.number

/-- The exit code of a completed run. -/
def forRun (instances : Nat) : ExitCode := if instances == 0 then clean else softwareFound

/-- The exit code of a failure. -/
def forFailure (f : Failure) : ExitCode :=
  match f with
  | .taskTimeout _ _ => timeoutError
  | f => match f.category with
    | .config | .plugin => configError
    | .task => taskError
    | .io | .inventory => ioError
    | .internal => internalError

end ExitCode

/-- A form in which results are printed. -/
inductive OutputFormat where
  | json
  | yaml
  /-- One line for every instance. -/
  | summary
  deriving DecidableEq, Inhabited, Repr

namespace OutputFormat

/-- All formats; the first one is used when nothing else is asked for. -/
def all : List OutputFormat := [json, yaml, summary]

/-- The name of a format. -/
def name : OutputFormat → String
  | json => "json"
  | yaml => "yaml"
  | summary => "summary"

end OutputFormat

end SoftwareCensus
