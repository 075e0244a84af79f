import SoftwareCensus.Tasks.Error

/-!
# Task definitions

A task is a mapping with modifiers and exactly one more entry, which says what the task does: it
calls a plugin, runs a list of tasks, or runs the tasks of a file.
-/

namespace SoftwareCensus.Tasks

/-- The keys that modify a task. -/
def modifierKeys : List String :=
  ["name", "loop", "register", "when", "ignore_errors", "loop_control", "environment", "timeout",
    "vars"]

/-- The key of a list of tasks. -/
def blockKey : String := "block"

/-- The key of a file with tasks. -/
def inclusionKey : String := "include_tasks"

/-- What a task does. -/
inductive Payload where
  | plugin (name : String) (args : Document)
  | block (tasks : List Document)
  /-- Runs the tasks of a file; the path name may be a template. -/
  | inclusion (file : Document)
  deriving Inhabited

namespace Payload

/-- The key of what a task does. -/
def name : Payload → String
  | plugin name _ => name
  | block _ => blockKey
  | inclusion _ => inclusionKey

/-- Whether a task calls a plugin. -/
def isPlugin : Payload → Bool
  | plugin _ _ => true
  | _ => false

end Payload

/-- The names that a loop binds. -/
structure LoopControl where
  itemName : String := "__item__"
  indexName : Option String := none
  deriving DecidableEq, Inhabited, Repr

/-- A task. -/
structure Definition where
  name : Option String := none
  payload : Payload
  items : Option Document := none
  loopControl : LoopControl := {}
  register : Option String := none
  condition : Option Document := none
  ignoreErrors : Option Document := none
  environment : Option Document := none
  timeout : Option Document := none
  vars : Fields := []
  /-- The modifiers as they are written. -/
  attributes : Fields := []
  deriving Inhabited

namespace Definition

/-- The name of a task in messages. -/
def label (t : Definition) : String := t.name.getD t.payload.name

/-- The document of a task. -/
def toDocument (t : Definition) : Document :=
  let text (s : Option String) : Document := .ofOption (s.map .str)
  let payload := match t.payload with
    | .plugin name args => Document.ofFields [("plugin", .str name), ("args", args)]
    | .block tasks => .ofFields [("block", .list tasks)]
    | .inclusion file => .ofFields [("include", file)]
  .ofFields [("name", text t.name), ("describe", .str t.label), ("payload", payload),
    ("payload_name", .str t.payload.name), ("loop", .ofOption t.items),
    ("loop_var", .str t.loopControl.itemName), ("index_var", text t.loopControl.indexName),
    ("register", text t.register), ("when", .ofOption t.condition),
    ("ignore_errors", .ofOption t.ignoreErrors), ("environment", .ofOption t.environment),
    ("timeout", .ofOption t.timeout), ("vars", .map t.vars), ("attributes", .map t.attributes)]

/-! ## Reading -/

/-- The value of an entry that is there and is not null. -/
def present (entries : Fields) (key : String) : Option Document :=
  (entries.get? key).filter (!·.isNull)

/-- The name that a task is given; what is no text shows as JSON. -/
def nameOf? (entries : Fields) : Option String :=
  (present entries "name").map fun
    | .str s => s
    | d => d.toJson

/-- The entry that says what a task does. -/
def payloadEntry (label : String) (entries : Fields) : Except Error (String × Document) :=
  match entries.filter fun (key, _) => !modifierKeys.contains key with
  | [] => .error (.definition (.noPayload label))
  | [entry] => .ok entry
  | _ :: (key, _) :: _ => .error (.definition (.secondPayload key label))

/-- What a task does. -/
def payloadOf (label key : String) (args : Document) : Except Error Payload :=
  if key == blockKey then
    match args with
    | .list tasks => .ok (.block tasks)
    | _ => .error (.definition (.blockNotList label))
  else if key == inclusionKey then
    let file := match args with
      | .str s => some (.str s)
      | .map fields => present fields "file"
      | _ => none
    match file with
    | some file => .ok (.inclusion file)
    | none => .error (.definition (.inclusionWithoutFile label))
  else .ok (.plugin key args)

/-- The entries of a modifier that has to be a mapping; without it there are none. -/
def mappingOf (entries : Fields) (field label : String) : Except Error Fields :=
  match present entries field with
  | none => .ok []
  | some (.map fields) => .ok fields
  | some _ => .error (.definition (.fieldNotMapping field label))

/-- The names that a loop binds. -/
def loopControlOf (fields : Fields) : LoopControl where
  itemName := ((fields.get? "loop_var").bind Document.asStr?).getD ({} : LoopControl).itemName
  indexName := (fields.get? "index_var").bind Document.asStr?

/-- The name under which a task registers its result. -/
def registerOf (entries : Fields) : Except Error (Option String) :=
  match present entries "register" with
  | none => .ok none
  | some (.str s) => .ok (some s)
  | some d => .error (.invalidRegister d.toJson)

/-- Reads a task. Without a name it is known by its place in the list. -/
def parse (index : Nat) (d : Document) : Except Error Definition := do
  let .map entries := d | throw (.definition (.notMapping index))
  let name := nameOf? entries
  let label := name.getD ("#" ++ toString index)
  let (key, args) ← payloadEntry label entries
  let payload ← payloadOf label key args
  let loopControl ← mappingOf entries "loop_control" label
  let vars ← mappingOf entries "vars" label
  let register ← registerOf entries
  return {
    name, payload, register, vars
    items := present entries "loop"
    loopControl := loopControlOf loopControl
    condition := present entries "when"
    ignoreErrors := present entries "ignore_errors"
    environment := present entries "environment"
    timeout := present entries "timeout"
    attributes := entries.filter fun (key, _) => modifierKeys.contains key }

end Definition

end SoftwareCensus.Tasks
