import SoftwareCensus.Document.Json.Printer

/-!
# Failures

Everything that can end a run or an instance, with what is told to people and to programs about
it: a code that stays the same, a category, whether a run can go on, and what to do.
-/

namespace SoftwareCensus

/-- A failure. -/
inductive Failure where
  | config (why : String)
  | invalidSignature (why : String)
  | invalidTaskDefinition (why : String)
  | invalidRunConfig (why : String)
  | inventory (why : String)
  | pluginNotFound (name : String)
  | invalidPluginArgs (plugin why : String)
  | taskFailed (task why : String)
  | taskTimeout (task : String) (seconds : Nat)
  | assertionFailed (why : String)
  | template (why : String)
  | io (why : String)
  | json (why : String)
  | yaml (why : String)
  | internal (why : String)
  deriving DecidableEq, Inhabited, Repr

namespace Failure

/-! ## Classification -/

/-- Where a failure comes from. -/
inductive Category where
  | config
  | inventory
  | plugin
  | task
  | io
  | internal
  deriving DecidableEq, Inhabited, Repr

/-- The name of a category. -/
def Category.name : Category → String
  | config => "config"
  | inventory => "inventory"
  | plugin => "plugin"
  | task => "task"
  | io => "io"
  | internal => "internal"

/-- What a program should do about a failure. -/
inductive Action where
  | retry
  | runCheck
  | fixConfig
  | recollect
  | skip
  | abort
  | manualIntervention
  deriving DecidableEq, Inhabited, Repr

/-- The name of an action. -/
def Action.name : Action → String
  | retry => "retry"
  | runCheck => "run_check"
  | fixConfig => "fix_config"
  | recollect => "recollect"
  | skip => "skip"
  | abort => "abort"
  | manualIntervention => "manual_intervention"

/-- The text of a failure. -/
def message : Failure → String
  | config why => "configuration error: " ++ why
  | invalidSignature why => "invalid signature: " ++ why
  | invalidTaskDefinition why => "invalid task definition: " ++ why
  | invalidRunConfig why => "invalid run configuration: " ++ why
  | inventory why => "invalid inventory: " ++ why
  | pluginNotFound name => "plugin not found: '" ++ name ++ "'"
  | invalidPluginArgs plugin why => "invalid arguments for plugin '" ++ plugin ++ "': " ++ why
  | taskFailed task why => "task '" ++ task ++ "' failed: " ++ why
  | taskTimeout task seconds =>
    "task '" ++ task ++ "' timed out after " ++ toString seconds ++ "s"
  | assertionFailed why => "assertion failed: " ++ why
  | template why => "template error: " ++ why
  | io why => "I/O error: " ++ why
  | json why => "JSON serialization error: " ++ why
  | yaml why => "YAML serialization error: " ++ why
  | internal why => "internal error: " ++ why

/-- The code of a failure; the tens are those of its category. -/
def code : Failure → Nat
  | config _ => 10
  | invalidSignature _ => 11
  | invalidTaskDefinition _ => 12
  | invalidRunConfig _ => 13
  | inventory _ => 20
  | pluginNotFound _ => 30
  | invalidPluginArgs _ _ => 31
  | taskFailed _ _ => 40
  | taskTimeout _ _ => 41
  | assertionFailed _ => 42
  | template _ => 43
  | io _ => 60
  | json _ => 61
  | yaml _ => 62
  | internal _ => 70

/-- The category of a failure. -/
def category : Failure → Category
  | config _ | invalidSignature _ | invalidTaskDefinition _ | invalidRunConfig _ => .config
  | inventory _ => .inventory
  | pluginNotFound _ | invalidPluginArgs _ _ => .plugin
  | taskFailed _ _ | taskTimeout _ _ | assertionFailed _ | template _ => .task
  | io _ | json _ | yaml _ => .io
  | internal _ => .internal

/-- Whether a run could go on with the next instance. -/
def isRecoverable : Failure → Bool
  | taskFailed _ _ | taskTimeout _ _ | assertionFailed _ | template _ | io _ => true
  | _ => false

/-- What a program should do. -/
def action : Failure → Action
  | config _ | invalidRunConfig _ => .runCheck
  | invalidSignature _ | invalidTaskDefinition _ | pluginNotFound _ | invalidPluginArgs _ _
  | template _ => .fixConfig
  | inventory _ => .recollect
  | taskFailed _ _ | assertionFailed _ => .skip
  | taskTimeout _ _ | io _ => .retry
  | json _ | yaml _ => .manualIntervention
  | internal _ => .abort

/-- What people should do. -/
def remediation : Failure → String
  | config _ =>
    "Run 'swd check' to validate configuration, or check syntax in config files."
  | invalidSignature _ =>
    "Fix the signature entry: names must be unique and cmd_regexp/pkg_regexp must compile."
  | invalidTaskDefinition _ =>
    "Each task needs exactly one plugin key besides loop/register/when/ignore_errors/" ++
      "loop_control/environment/timeout/vars/name."
  | invalidRunConfig _ =>
    "Run 'swd check --run-config <file>' to validate the run configuration."
  | inventory _ =>
    "Re-collect the inventory. Expected \x7bprocesses, tcp_listen, udp_listen, packages?, " ++
      "dockers?\x7d."
  | pluginNotFound _ =>
    "Run 'swd plugins' to list the registered plugins and check the task spelling."
  | invalidPluginArgs _ _ =>
    "Run 'swd plugins' to see the argument spec of the plugin and fix the task arguments."
  | taskFailed _ _ =>
    "Inspect the task arguments, or set 'ignore_errors: true' on the task if the failure is " ++
      "expected."
  | taskTimeout _ _ =>
    "The plugin did not finish in time. Raise the task 'timeout' or investigate the slow plugin."
  | assertionFailed _ =>
    "An 'assert' task rejected the instance. Check the asserted conditions against the inventory."
  | template _ =>
    "Check the '\x7b\x7b ... \x7d\x7d' expressions in the task for typos and undefined variables."
  | io _ => "Check that the input files exist and are readable. Retry the operation."
  | json _ => "Invalid JSON in file. Check syntax with 'cat <file> | jq .' or regenerate it."
  | yaml _ => "Invalid YAML in file. Check indentation and quoting."
  | internal _ => "This is a bug. Re-run with '-vv' and report the log output."

/-- A short name of what happened. -/
def headline : Failure → String
  | config _ => "Configuration Error"
  | invalidSignature _ => "Invalid Signature"
  | invalidTaskDefinition _ => "Invalid Task Definition"
  | invalidRunConfig _ => "Invalid Run Configuration"
  | inventory _ => "Invalid Inventory"
  | pluginNotFound _ => "Plugin Not Found"
  | invalidPluginArgs _ _ => "Invalid Plugin Arguments"
  | taskFailed _ _ => "Task Failed"
  | taskTimeout _ _ => "Task Timeout"
  | assertionFailed _ => "Assertion Failed"
  | template _ => "Template Error"
  | io _ => "I/O Error"
  | json _ => "JSON Parse Error"
  | yaml _ => "YAML Parse Error"
  | internal _ => "Internal Error"

/-! ## Presentation -/

/-- What is known about the circumstances of a failure. -/
def context : Failure → Fields
  | pluginNotFound plugin | invalidPluginArgs plugin _ => [("plugin", .str plugin)]
  | taskFailed task _ => [("task", .str task)]
  | taskTimeout task seconds => [("task", .str task), ("timeout_seconds", .int seconds)]
  | _ => []

/-- A failure for programs, with more context. Fields are in the order in which they are
written. -/
def structuredEntries (f : Failure) (more : Fields) : List (String × Document) :=
  let context := f.context.extend more
  [("code", .int f.code), ("category", .str f.category.name), ("message", .str f.message),
    ("recoverable", .bool f.isRecoverable), ("suggested_action", .str f.action.name)] ++
    if context.isEmpty then [] else [("context", .map context)]

/-- A failure for programs. -/
def structured (f : Failure) (more : Fields) : Document := .ofFields (f.structuredEntries more)

/-- A failure for people, with or without colours. -/
def human (f : Failure) (colored : Bool) : String :=
  let (red, cyan, plain) :=
    if colored then ("\x1b[31m", "\x1b[36m", "\x1b[0m") else ("", "", "")
  red ++ "✗" ++ plain ++ " " ++ f.headline ++ "\n  Reason: " ++ f.message ++ "\n  " ++ cyan ++
    "Fix:" ++ plain ++ " " ++ f.remediation

end Failure

end SoftwareCensus
