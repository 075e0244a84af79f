import SoftwareCensus.Document.Merge
import SoftwareCensus.Document.Path
import SoftwareCensus.Numeral.Binary64
import SoftwareCensus.Plugin.Registry
import SoftwareCensus.Tasks.Context
import SoftwareCensus.Tasks.Definition

/-!
# Running tasks

Tasks run one after another. What a task binds for its own time is unbound when it ends, whether it
fails or not; what a plugin does to the facts of the instance counts only if the plugin succeeds.
Beside the context that tasks work on, a session keeps a journal of what happens.

Lists of tasks are inside others, as blocks and by inclusion. A task is run with a function that
runs the lists inside it; `Interpreter.runTasks` ties this knot for a number of levels. For how many
there is room is up to the machine, so an interpreter carries the number.
-/

namespace SoftwareCensus.Tasks

open Numeral

/-! ## Sessions -/

/-- What happens while tasks run. -/
inductive Event where
  /-- A path name was looked up. -/
  | consulted (path : String)
  | called (plugin : String) (environment : Fields)
  | included (task path : String) (count : Nat)
  /-- The result of a plugin was bound to a name. -/
  | registered (task name : String)
  /-- A task has no result that it could register. -/
  | registerIgnored (task : String)
  /-- The condition of a task does not hold for an item. -/
  | skipped (task : String) (index : Nat)
  /-- A task failed, or a task for one item of its loop. -/
  | failed (e : Error)
  /-- A task asked to go on after its failure for an item. -/
  | ignored (task : String) (index : Nat) (e : Error)
  deriving Inhabited

/-- The state of a run. -/
structure Session where
  context : Context
  /-- What happened, latest first. -/
  journal : List Event := []
  deriving Inhabited

/-- Something that works on a session and may fail. What was done before it failed stays done. -/
abbrev Run := ExceptT Error (StateM Session)

namespace Run

/-- Notes an event; this cannot fail. -/
def noted (event : Event) : StateM Session Unit :=
  modify fun s => { s with journal := event :: s.journal }

/-- Notes an event. -/
def note (event : Event) : Run Unit := noted event

/-- The context. -/
def context : Run Context := return (← get).context

/-- Changes the context. -/
def change (f : Context → Context) : Run Unit := modify fun s => { s with context := f s.context }

/-- Notes a failure. -/
def noteFailure {α : Type} (act : Run α) : Run α := fun s =>
  match act s with
  | (.error e, s) => (.error e, { s with journal := .failed e :: s.journal })
  | (.ok x, s) => (.ok x, s)

/-- Runs in a context that is changed, and changes it again whatever happens. -/
def within {α : Type} (enter leave : Context → Context) (act : Run α) : Run α := fun s =>
  let (outcome, s) := act { s with context := enter s.context }
  (outcome, { s with context := leave s.context })

/-- Runs with a binding. -/
def withBinding {α : Type} (name : String) (d : Document) (act : Run α) : Run α := do
  let before := (← context).overlay.get? name
  within (·.set name d) (·.rebind name before) act

/-- Runs with bindings, each made in the scope of those before it. -/
def withBindings {α : Type} (act : Run α) : List (String × Document) → Run α
  | [] => act
  | (name, d) :: rest => withBinding name d (withBindings act rest)

/-- Runs with a layer of environment entries, if there is one. -/
def withEnvironment {α : Type} (layer : Option Fields) (act : Run α) : Run α :=
  match layer with
  | some layer => within (·.pushEnvironment layer) (·.popEnvironment) act
  | none => act

/-- Renders a document for a task. -/
def render (label : String) (d : Document) : Run Document := do
  match Template.render (← context).lookup d with
  | .ok d => return d
  | .error e => throw (.template label e)

/-- Whether a condition of a task holds. -/
def holds (label : String) (d : Document) : Run Bool := do
  match Template.condition (← context).lookup d with
  | .ok b => return b
  | .error e => throw (.template label e)

end Run

open Run

/-! ## Time limits -/

/-- The nanoseconds of one second. -/
def nanosPerSecond : Nat := 1000000000

/-- The nanoseconds of a number of seconds, unless they are too many. -/
def nanoseconds? (x : Binary64) : Option Nat :=
  if !x.isFinite then none
  else
    let nanos := roundDiv (x.significand * twoTo x.exponent.toNat * nanosPerSecond)
      (twoTo (-x.exponent).toNat)
    if nanos < twoTo 64 * nanosPerSecond then some nanos else none

/-- The number of seconds that a document stands for. -/
def seconds? : Document → Option Binary64
  | .int n => some (.ofInt n)
  | .float x => some x
  | .str s => readDouble? (Text.trimList s.toList)
  | _ => none

/-- The limit that a number of seconds is; zero and less are no limit. The outer `none` means that
there is no such limit. -/
def limit? (x : Binary64) : Option (Option Nat) :=
  if x.isNaN then none
  else if x.isNegative || x.isZero then some none
  else (nanoseconds? x).map some

/-! ## Interpreters -/

/-- What task lists run against. -/
structure Interpreter where
  registry : Registry
  files : Files.View
  /-- The nanoseconds that plugins may take, unless their task says otherwise. -/
  defaultLimit : Option Nat := none
  /-- The directory in which relative path names are looked up. -/
  directory : Option String := none
  /-- The number of levels of lists inside lists that there is room for. -/
  levels : Nat

namespace Interpreter

/-- What a task does, with the plugin that it names. -/
inductive Action where
  | call (plugin : Plugin) (args : Document)
  | block (tasks : List Document)
  | inclusion (file : Document)

/-- Finds the plugin that a task names. -/
def actionOf (i : Interpreter) : Payload → Except Error Action
  | .plugin name args =>
    match i.registry.get? name with
    | some p => .ok (.call p args)
    | none => .error (.pluginNotFound name)
  | .block tasks => .ok (.block tasks)
  | .inclusion file => .ok (.inclusion file)

/-- The nanoseconds that a task may take. -/
def limitOf (i : Interpreter) (t : Definition) : Run (Option Nat) := do
  match t.timeout with
  | none => return i.defaultLimit
  | some raw =>
    let d ← render t.label raw
    match (seconds? d).bind limit? with
    | some limit => return limit
    | none => throw (.definition (.badTimeout d.display t.label))

/-! ### Plugins -/

/-- The policy for lists that the result of a plugin asks for. -/
def policyOf (label : String) (result : Fields) : Except Error ListMerge :=
  match result.get? listMergeKey with
  | none | some .null => .ok .replace
  | some (.str s) => (ListMerge.ofName s).mapError (.execution label)
  | some d => .error (.execution label ("invalid list merge policy " ++ d.toJson))

/-- Merges what a plugin returns for the instance into its facts; the rest of the result stays. -/
def adopt (label : String) (result : Document) : Run Document := do
  match result with
  | .map fields =>
    let policy ← policyOf label fields
    match Fields.get? fields instanceKey with
    | none | some .null => pure ()
    | some (.map update) => change fun c => { c with facts := .mergeInto policy c.facts update }
    | some _ => throw (.execution label
        ("'" ++ instanceKey ++ "' in a plugin result must be a mapping"))
    return .map (Fields.erase fields listMergeKey)
  | d => return d

/-- The arguments that a plugin is called with. -/
def argsOf (label : String) (p : Plugin) (args : Document) : Run Document := do
  let args ← if p.templated then render label args else pure args
  (p.validate args).mapError (Error.ofPlugin label)

/-- What a plugin is called with in a context. -/
def callOf (t : Definition) (c : Context) (args : Document) : Plugin.Call where
  args := args
  facts := c.facts
  vars := c.vars
  attributes := t.attributes
  environment := c.environmentEntries

/-- What becomes of a call when its plugin has ended. -/
def settle (t : Definition) (p : Plugin) (limit : Option Nat) : Plugin.Ending → Run Document
  | .finished (.ok result) facts => do
    change fun c => { c with facts }
    adopt t.label result
  | .finished (.error e) _ => throw (.ofPlugin t.label e)
  | .crashed => throw (.execution t.label ("plugin '" ++ p.name ++ "' panicked"))
  | .endless => match limit with
    | some nanos => throw (.timeout p.name t.label (nanos / nanosPerSecond))
    | none => throw .endless

/-- Calls a plugin. -/
def callPlugin (i : Interpreter) (t : Definition) (p : Plugin) (args : Document) :
    Run Document := do
  let args ← argsOf t.label p args
  let limit ← i.limitOf t
  let c ← context
  note (.called p.name c.environmentEntries)
  settle t p limit (p.run (callOf t c args))

/-! ### Files -/

/-- The path name at which a file is looked up. -/
def locate (i : Interpreter) (path : String) : String :=
  match i.directory with
  | some directory => Files.join directory path
  | none => path

/-- The tasks of a file. -/
def included (i : Interpreter) (label : String) (file : Document) : Run (List Document) := do
  match ← render label file with
  | .str path =>
    let path := i.locate path
    note (.consulted path)
    match Config.loadTaskList i.files path with
    | .ok tasks =>
      note (.included label path tasks.length)
      return tasks
    | .error e => throw (.inclusion (.unreadable path label e))
  | d => throw (.inclusion (.notPath d.display label))

/-! ### Items -/

/-- Does what a task does. The second argument runs a list of tasks. -/
def perform (i : Interpreter) (inner : List Document → Run Unit) (t : Definition) :
    Action → Run Document
  | .call p args => i.callPlugin t p args
  | .block tasks => do
    inner tasks
    return .null
  | .inclusion file => do
    inner (← i.included t.label file)
    return .null

/-- The layer of environment entries of a task. -/
def layerOf (t : Definition) : Run (Option Fields) := do
  match t.environment with
  | none => return none
  | some d => match ← render t.label d with
    | .map layer => return some layer
    | _ => throw (.definition (.fieldNotMapping "environment" t.label))

/-- Renders the variables of a task, all in the same scope. -/
def renderVars (label : String) : List (String × Document) → Run (List (String × Document))
  | [] => return []
  | (name, d) :: rest => do
    let d ← render label d
    return (name, d) :: (← renderVars label rest)

/-- Does what a task does, in the scope of its environment entries and its variables. -/
def carryOut (i : Interpreter) (inner : List Document → Run Unit) (t : Definition)
    (action : Action) : Run Document := do
  let layer ← layerOf t
  withEnvironment layer do
    let vars ← renderVars t.label t.vars
    withBindings (i.perform inner t action) vars

/-- Whether the condition of a task holds. -/
def isWanted (t : Definition) : Run Bool :=
  match t.condition with
  | none => return true
  | some d => holds t.label d

/-- Does what a task does, if its condition holds. -/
def attempt (i : Interpreter) (inner : List Document → Run Unit) (t : Definition)
    (action : Action) : Run (Option Document) := do
  if !(← isWanted t) then return none
  some <$> i.carryOut inner t action

/-- What an item of a loop is bound to, and its place. -/
def itemBindings (t : Definition) (item : Option Document) (index : Nat) :
    List (String × Document) :=
  match item with
  | none => []
  | some d => (t.loopControl.itemName, d) :: match t.loopControl.indexName with
    | some name => [(name, .int index)]
    | none => []

/-- What is reported of every item before anything happens. -/
def reportStart (t : Definition) (item : Option Document) : Fields :=
  let report := Fields.ofList
    [("failed", .bool false), ("skipped", .bool false), ("msg", .str "")]
  match item with
  | some d => report.insert t.loopControl.itemName d
  | none => report.insert "task" (.str t.label)

/-- What is reported of an item that was skipped. -/
def reportSkipped (report : Fields) : Fields :=
  report.extend [("skipped", .bool true), ("msg", .str "Conditional result was False")]

/-- What is reported of an item that was done. -/
def reportDone (t : Definition) (report : Fields) (result : Document) : Fields :=
  let report := match t.payload with
    | .plugin name args => report.insert "invocation"
      (.ofFields [("plugin_name", .str name), ("plugin_args", args)])
    | _ => report
  match result with
  | .map fields => report.extend fields
  | .null => report
  | d => report.insert "result" d

/-- What is reported of an item that failed. -/
def reportFailed (report : Fields) (e : Error) : Fields :=
  report.extend [("failed", .bool true), ("msg", .str e.message)]

/-- Runs a task for one item: what is reported of it, and the error that ends the list. -/
def runItem (i : Interpreter) (inner : List Document → Run Unit) (t : Definition)
    (action : Action) (ignore : Bool) (index : Nat) (item : Option Document) :
    StateM Session (Fields × Option Error) := do
  let report := reportStart t item
  let act := withBindings (i.attempt inner t action) (itemBindings t item index)
  match ← (noteFailure act).run with
  | .ok none =>
    noted (.skipped t.label index)
    return (reportSkipped report, none)
  | .ok (some result) => return (reportDone t report result, none)
  | .error e =>
    if e.propagates ignore then return (reportFailed report e, some e)
    noted (.ignored t.label index e)
    return (reportFailed report e, none)

/-- Runs a task for its items, up to the first whose error ends the list. -/
def runItems (run : Nat → Option Document → StateM Session (Fields × Option Error)) (index : Nat) :
    List (Option Document) → StateM Session (List Fields × Option Error)
  | [] => return ([], none)
  | item :: rest => do
    let (report, e) ← run index item
    match e with
    | some e => return ([report], some e)
    | none =>
      let (reports, e) ← runItems run (index + 1) rest
      return (report :: reports, e)

/-! ### Tasks -/

/-- Whether a task asks to ignore errors. -/
def ignoresErrors (t : Definition) : Run Bool :=
  match t.ignoreErrors with
  | none => return false
  | some d => holds t.label d

/-- The items that a task runs for; without a loop it runs once for no item. -/
def itemsOf (t : Definition) : Run (List (Option Document)) := do
  match t.items with
  | none => return [none]
  | some d => match ← render t.label d with
    | .list items => return items.map some
    | d => throw (.definition (.loopNotList t.label d.display))

/-- The name under which a task registers its result. Only plugins have results. -/
def registerNameOf (t : Definition) : Run (Option String) := do
  match t.register with
  | none => return none
  | some raw =>
    if !t.payload.isPlugin then
      note (.registerIgnored t.label)
      return none
    let name := (← render t.label (.str raw)).display
    if isIdentifier name then return some name else throw (.invalidRegister name)

/-- What a task registers. -/
def registered (t : Definition) (reports : List Fields) (e : Option Error) : Document :=
  if t.items.isNone then (reports.head?.map Document.map).getD .null
  else
    let someFailed := reports.any fun r => (r.get? "failed").any (· == .bool true)
    .ofFields [("task", .str t.label),
      ("msg", .str (if someFailed then "One or more items failed" else "All items completed")),
      ("failed", .bool e.isSome), ("results", .list (reports.map Document.map))]

/-- Ends a task whose items were run: its result is registered, and its error ends the list. -/
def conclude (t : Definition) (reports : List Fields) (e : Option Error) : Run Unit := do
  match ← registerNameOf t with
  | some name =>
    note (.registered t.label name)
    change (·.set name (registered t reports e))
  | none => pure ()
  match e with
  | some e => throw e
  | none => pure ()

/-- Runs a task. The second argument runs the lists of tasks inside it. -/
def runTask (i : Interpreter) (inner : List Document → Run Unit) (t : Definition) : Run Unit := do
  let action ← i.actionOf t.payload
  let ignore ← ignoresErrors t
  let items ← itemsOf t
  let (reports, e) ← runItems (i.runItem inner t action ignore) 0 items
  conclude t reports e

/-- Reads and runs one task of a list. -/
def runEntry (i : Interpreter) (inner : List Document → Run Unit) (index : Nat) (d : Document) :
    Run Unit := noteFailure do
  i.runTask inner (← Definition.parse index d)

/-- Runs tasks from a place in their list on. The second argument runs the lists inside them. -/
def runFrom (i : Interpreter) (inner : List Document → Run Unit) (index : Nat) :
    List Document → Run Unit
  | [] => pure ()
  | d :: rest => do
    i.runEntry inner index d
    runFrom i inner (index + 1) rest

/-- Runs a list of tasks with lists inside lists down to a number of levels. A list that goes
further down counts as endless. -/
def runTasks (i : Interpreter) : Nat → List Document → Run Unit
  | 0, _ => throw .endless
  | levels + 1, tasks => i.runFrom (i.runTasks levels) 0 tasks

/-- Runs a list of tasks. -/
def run (i : Interpreter) (tasks : List Document) : Run Unit := i.runTasks i.levels tasks

/-- Runs one task as if it were at a place of a list. -/
def runOne (i : Interpreter) (index : Nat) (d : Document) : Run Unit :=
  i.runEntry (i.runTasks i.levels) index d

end Interpreter

end SoftwareCensus.Tasks
