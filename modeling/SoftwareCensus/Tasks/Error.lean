import SoftwareCensus.Config.TaskList
import SoftwareCensus.Failure
import SoftwareCensus.Plugin.Basic

/-!
# Task errors

Why a task fails, and which failures a task may ask to ignore: those of what a task ran into, never
those of the task list itself, and never a failed assertion.
-/

namespace SoftwareCensus.Tasks

/-- What is wrong with the definition of a task. -/
inductive Flaw where
  | notMapping (index : Nat)
  | secondPayload (key label : String)
  | noPayload (label : String)
  | blockNotList (label : String)
  | inclusionWithoutFile (label : String)
  | fieldNotMapping (field label : String)
  | loopNotList (label shown : String)
  | badTimeout (shown label : String)
  deriving DecidableEq, Inhabited, Repr

/-- The text of a flaw. -/
def Flaw.message : Flaw → String
  | notMapping index => "Plugin definition #" ++ toString index ++ " must be a mapping"
  | secondPayload key label =>
    "Unsupported attribute '" ++ key ++ "' for plugin definition '" ++ label ++ "'"
  | noPayload label => "No plugin specified for plugin definition '" ++ label ++ "'"
  | blockNotList label => "'block' plugin '" ++ label ++ "' needs a list of plugins as argument"
  | inclusionWithoutFile label =>
    "Missing argument 'file' for 'include_tasks' plugin '" ++ label ++ "'"
  | fieldNotMapping field label =>
    "'" ++ field ++ "' of plugin definition '" ++ label ++ "' must be a mapping"
  | loopNotList label shown =>
    "Invalid data passed to 'loop' of plugin definition '" ++ label ++
      "', it requires a list, got: " ++ shown
  | badTimeout shown label =>
    "Invalid 'timeout' " ++ shown ++ " for plugin definition '" ++ label ++ "'"

/-- What is wrong with a list of tasks that a task includes. -/
inductive InclusionFlaw where
  | notPath (shown label : String)
  | unreadable (path label : String) (e : Config.Error)
  deriving DecidableEq, Inhabited, Repr

/-- The text of a flaw. -/
def InclusionFlaw.message : InclusionFlaw → String
  | notPath shown label =>
    "Invalid file " ++ shown ++ " for 'include_tasks' plugin '" ++ label ++ "'"
  | unreadable path label e =>
    "Cannot read file '" ++ path ++ "' for 'include_tasks' plugin '" ++ label ++ "': " ++ e.message

/-- Why a list of tasks ends early. -/
inductive Error where
  | definition (flaw : Flaw)
  | pluginNotFound (name : String)
  | invalidArgs (plugin : String) (flaw : ArgFlaw)
  | invalidRegister (name : String)
  | inclusion (flaw : InclusionFlaw)
  | template (task : String) (e : Template.Error)
  | execution (task why : String)
  | timeout (plugin task : String) (seconds : Nat)
  | assertion (task why : String)
  /-- No error that a run has: the run would not end at all. -/
  | endless
  deriving DecidableEq, Inhabited, Repr

namespace Error

/-- The text of an error. -/
def message : Error → String
  | definition flaw => flaw.message
  | pluginNotFound name => "Plugin '" ++ name ++ "' not found"
  | invalidArgs plugin flaw =>
    "Wrong parameters sent to plugin '" ++ plugin ++ "': " ++ flaw.message
  | invalidRegister name => "Invalid variable name in 'register' specified: '" ++ name ++ "'"
  | inclusion flaw => flaw.message
  | template task e => "Template error in task '" ++ task ++ "': " ++ e.message
  | execution task why => "Task '" ++ task ++ "' failed: " ++ why
  | timeout plugin task _ => "Plugin '" ++ plugin ++ "' timeout for task '" ++ task ++ "'"
  | assertion _ why => why
  | endless => "the task list does not end"

/-- The name of the kind of an error. -/
def kind : Error → String
  | definition _ => "Definition"
  | pluginNotFound _ => "PluginNotFound"
  | invalidArgs _ _ => "InvalidArgs"
  | invalidRegister _ => "InvalidRegister"
  | inclusion _ => "Include"
  | template _ _ => "Template"
  | execution _ _ => "Execution"
  | timeout _ _ _ => "Timeout"
  | assertion _ _ => "Assertion"
  | endless => "Endless"

/-- Whether a task may ask to go on after this error. -/
def isIgnorable : Error → Bool
  | template _ _ | execution _ _ | timeout _ _ _ => true
  | _ => false

/-- Whether the error ends the list, given whether the task asks to ignore errors. -/
def propagates (e : Error) (ignore : Bool) : Bool := !ignore || !e.isIgnorable

/-- Whether the error is one of the task list and not of what the list ran into. -/
def isConfiguration : Error → Bool
  | definition _ | pluginNotFound _ | invalidArgs _ _ | invalidRegister _ | inclusion _ => true
  | _ => false

/-- Whether a plugin did not finish in time. -/
def isTimeout : Error → Bool
  | timeout _ _ _ => true
  | _ => false

/-- The error of a task whose plugin fails. -/
def ofPlugin (task : String) : Plugin.Error → Error
  | .invalidArgs plugin flaw => invalidArgs plugin flaw
  | .template e => template task e
  | .assertion why => assertion task why
  | .execution why => execution task why
  | .cancelled => execution task Plugin.Error.cancelled.message

/-- The failure that an error is. -/
def toFailure : Error → Failure
  | e@(definition _) | e@(invalidRegister _) | e@(inclusion _) => .invalidTaskDefinition e.message
  | pluginNotFound name => .pluginNotFound name
  | invalidArgs plugin flaw => .invalidPluginArgs plugin flaw.message
  | e@(template _ _) => .template e.message
  | execution task why => .taskFailed task why
  | timeout _ task seconds => .taskTimeout task seconds
  | assertion _ why => .assertionFailed why
  | e@endless => .internal e.message

end Error

end SoftwareCensus.Tasks
