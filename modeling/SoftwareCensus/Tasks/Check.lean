import SoftwareCensus.Document.Path
import SoftwareCensus.Plugin.Registry
import SoftwareCensus.Tasks.Definition

/-!
# Checking task lists

What can be said of a task list without running it: its tasks are well formed, the plugins exist,
and arguments without templates are what the plugins take. What a task includes is not looked at.
-/

namespace SoftwareCensus

mutual

/-- Whether a text in a document, keys included, is a template. -/
def Document.hasTemplate : Document → Bool
  | .str s => Template.isTemplate s
  | .list items => Document.haveTemplate items
  | .map fields => Document.fieldsHaveTemplate fields
  | _ => false

/-- Whether a text in a list is a template. -/
def Document.haveTemplate : List Document → Bool
  | [] => false
  | d :: rest => Document.hasTemplate d || Document.haveTemplate rest

/-- Whether a text in a mapping is a template. -/
def Document.fieldsHaveTemplate : List (String × Document) → Bool
  | [] => false
  | (k, d) :: rest =>
    Template.isTemplate k || Document.hasTemplate d || Document.fieldsHaveTemplate rest

end

namespace Tasks

/-! ## Tasks -/

/-- Checks the arguments of a plugin, unless they have templates. -/
def checkArgs (p : Plugin) (label : String) (args : Document) : Except Error Unit :=
  if args.hasTemplate then .ok ()
  else (p.validate args).mapError (.ofPlugin label) |>.map fun _ => ()

/-- Checks the name under which a task registers its result, unless it is a template. -/
def checkRegister : Option String → Except Error Unit
  | none => .ok ()
  | some name =>
    if Template.isTemplate name || isIdentifier name then .ok () else .error (.invalidRegister name)

/-- Checks what a task does. The second argument checks a list of tasks. -/
def checkPayload (registry : Registry) (inner : List Document → Except Error Unit)
    (t : Definition) : Except Error Unit :=
  match t.payload with
  | .plugin name args =>
    match registry.get? name with
    | some p => checkArgs p t.label args
    | none => .error (.pluginNotFound name)
  | .block tasks => inner tasks
  | .inclusion _ => .ok ()

/-- Checks tasks from a place in their list on. The second argument checks the lists in them. -/
def checkFrom (registry : Registry) (inner : List Document → Except Error Unit) (index : Nat) :
    List Document → Except Error Unit
  | [] => .ok ()
  | d :: rest => do
    let t ← Definition.parse index d
    checkPayload registry inner t
    checkRegister t.register
    checkFrom registry inner (index + 1) rest

/-- Checks tasks with lists of tasks in them down to a number of levels. -/
def checkWithin (registry : Registry) : Nat → List Document → Except Error Unit
  | 0, _ => .error .endless
  | levels + 1, tasks => checkFrom registry (checkWithin registry levels) 0 tasks

/-- Checks a list of tasks. -/
def check (registry : Registry) (tasks : List Document) : Except Error Unit :=
  checkWithin registry ((Document.list tasks).depth + 1) tasks

end Tasks

end SoftwareCensus
