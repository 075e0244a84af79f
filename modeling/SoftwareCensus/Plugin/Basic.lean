import SoftwareCensus.Plugin.Arguments
import SoftwareCensus.Template.Render

/-!
# Plugins

A plugin is a named action on an instance. It works on a copy of the instance's facts, which counts
only if the plugin succeeds, and is a function of its call.
-/

namespace SoftwareCensus

/-- The name under which tasks see the facts of the instance. In the result of a plugin it binds the
facts to merge into the instance. -/
def instanceKey : String := "__instance__"

/-- The name that binds the policy for lists in the result of a plugin. -/
def listMergeKey : String := "__list_merge__"

namespace Plugin

/-! ## Calls -/

/-- Why a plugin fails. -/
inductive Error where
  | invalidArgs (plugin : String) (flaw : ArgFlaw)
  | execution (why : String)
  | template (e : Template.Error)
  | assertion (why : String)
  | cancelled
  deriving DecidableEq, Inhabited, Repr

/-- The text of an error. -/
def Error.message : Error → String
  | invalidArgs plugin flaw =>
    "Wrong parameters sent to plugin '" ++ plugin ++ "': " ++ flaw.message
  | execution why => why
  | template e => e.message
  | assertion why => why
  | cancelled => "plugin was cancelled"

/-- What a plugin sees. -/
structure Call where
  args : Document
  /-- The facts of the instance. -/
  facts : Document
  vars : Template.Lookup
  /-- The modifiers of the task. -/
  attributes : Fields := []
  environment : Fields := []

namespace Call

/-- The variables of templates: those of the task, and the facts of the instance. -/
def lookup (call : Call) (name : String) : Option Document :=
  if name == instanceKey then some call.facts else call.vars name

/-- An argument. -/
def arg? (call : Call) (name : String) : Option Document := call.args.field? name

/-- The text of an argument; anything else is an empty text. -/
def text (call : Call) (name : String) : String :=
  ((call.arg? name).bind Document.asStr?).getD ""

end Call

/-- How a call ends. -/
inductive Ending where
  /-- With a result or an error, and with the facts as the plugin leaves them. -/
  | finished (result : Except Error Document) (facts : Document)
  /-- By a fault in the plugin. -/
  | crashed
  /-- Not before somebody asks for it. -/
  | endless
  deriving Inhabited

/-- An ending that leaves the facts as they were. -/
def Call.answer (call : Call) (result : Except Error Document) : Ending :=
  .finished result call.facts

end Plugin

/-- A plugin. -/
structure Plugin where
  name : String
  description : String := ""
  args : ArgShape
  /-- Whether templates in the arguments are rendered before the plugin sees them. -/
  templated : Bool := true
  /-- What the arguments have to satisfy besides their shape. -/
  check : Document → Except ArgFlaw Unit := fun _ => .ok ()
  run : Plugin.Call → Plugin.Ending

namespace Plugin

/-- The document of a plugin: what is told about it. -/
def toDocument (p : Plugin) : Document :=
  .ofFields [("name", .str p.name), ("description", .str p.description),
    ("templated_args", .bool p.templated), ("args", p.args.toDocument)]

/-- The normal form of arguments. -/
def validate (p : Plugin) (args : Document) : Except Error Document :=
  Except.mapError (.invalidArgs p.name) do
    let args ← p.args.validate args
    p.check args
    return args

end Plugin

end SoftwareCensus
