import SoftwareCensus.Detection.Enrichment
import SoftwareCensus.Detection.Finalizing
import SoftwareCensus.Tasks.Check
import SoftwareCensus.Tasks.Interpreter

/-!
# Discovery

A run goes through the signatures of a catalog in order. Every instance that a signature detects is
judged by its tasks: it is kept as a document, it is retracted, so that its processes are available
to the signatures that follow, or it fails. A failure ends the run, unless the run is to go on
without the instance.
-/

namespace SoftwareCensus

/-! ## Run ids

The ids by which the log lines of one run are found: `swd-YYYYMMDD-HHMMSS-XXXX`. -/

/-- The id of a run. -/
structure RunId where
  text : String
  deriving DecidableEq, Inhabited, Repr

namespace RunId

/-- Whether a text has a length and consists of some characters only. -/
private def consistsOf (p : Char → Bool) (length : Nat) (s : String) : Bool :=
  s.utf8ByteSize == length && s.toList.all p

/-- Whether a character is one of the alphabet of base 32. -/
private def isBase32 (c : Char) : Bool := ('a' ≤ c && c ≤ 'z') || ('2' ≤ c && c ≤ '7')

/-- Reads a run id. -/
def read? (s : String) : Option RunId :=
  match s.splitOn "-" with
  | ["swd", date, time, suffix] =>
    if consistsOf Char.isDigit 8 date && consistsOf Char.isDigit 6 time &&
        consistsOf isBase32 4 suffix then some ⟨s⟩ else none
  | _ => none

/-- The letters of base 32. -/
private def alphabet : List Char := "abcdefghijklmnopqrstuvwxyz234567".toList

/-- The last part of a run id, from a number. -/
def suffixOf (n : Nat) : String :=
  String.ofList ([32768, 1024, 32, 1].map fun weight => alphabet.getD (n / weight % 32) 'a')

/-- The run id for a date, a time and a number. -/
def make (date time : String) (n : Nat) : RunId :=
  ⟨"swd-" ++ date ++ "-" ++ time ++ "-" ++ suffixOf n⟩

end RunId

namespace Discovery

open Tasks

/-! ## Settings, errors and results -/

/-- The settings of a run. -/
structure Options where
  /-- Whether the run goes on without an instance whose tasks fail. -/
  continueOnError : Bool := false
  /-- The nanoseconds that plugins may take. -/
  defaultLimit : Option Nat := none
  /-- Tasks that come before those of a signature. -/
  preTasks : List Document := []
  /-- Tasks that come after those of a signature. -/
  postTasks : List Document := []
  /-- Variables that hide those of the inventory. -/
  vars : Fields := []
  /-- The directory of the files that tasks include. -/
  directory : Option String := none
  deriving Inhabited

/-- Why a run ends without a report. -/
inductive Error where
  | signature (name : String) (e : Signature.Error)
  | task (place : String) (e : Tasks.Error)
  deriving DecidableEq, Inhabited, Repr

namespace Error

/-- The text of an error. -/
def message : Error → String
  | signature name e => "signature '" ++ name ++ "': " ++ e.message
  | task place e => place ++ ": " ++ e.message

/-- The failure that an error is. -/
def toFailure : Error → Failure
  | signature name e => .invalidSignature (signature name e).message
  | task _ e => e.toFailure

end Error

/-- What becomes of an instance. -/
inductive Fate where
  | kept (document : Document)
  | retracted
  | failed (place : String) (e : Tasks.Error)
  deriving Inhabited

/-- A detected instance and what becomes of it. -/
structure Verdict where
  seed : Seed
  fate : Fate
  deriving Inhabited

namespace Verdict

/-- The document of an instance that is kept. -/
def document? (v : Verdict) : Option Document :=
  match v.fate with
  | .kept d => some d
  | _ => none

/-- The entry for an instance that failed, in the order in which it is written. -/
def failureEntries? (v : Verdict) : Option (List (String × Document)) :=
  match v.fate with
  | .failed place e =>
    let failure := e.toFailure
    some [("type", .str v.seed.softwareType), ("pid", .str v.seed.representative.text),
      ("code", .int failure.code), ("error", .str (place ++ ": " ++ failure.message))]
  | _ => none

/-- Whether an instance is retracted. -/
def isRetracted (v : Verdict) : Bool :=
  match v.fate with
  | .retracted => true
  | _ => false

end Verdict

/-- The result of a run. -/
structure Report where
  runId : RunId
  /-- The detected instances in their order. -/
  verdicts : List Verdict
  /-- The processes that no signature keeps, in ascending order. -/
  unclaimed : List Pid
  deriving Inhabited

namespace Report

/-- The documents of the instances that are kept. -/
def software (r : Report) : List Document := r.verdicts.filterMap Verdict.document?

/-- The entries for the instances that failed. -/
def failures (r : Report) : List Document :=
  (r.verdicts.filterMap Verdict.failureEntries?).map .ofFields

/-- The document of a report. -/
def toDocument (r : Report) : Document :=
  .ofFields [("run_id", .str r.runId.text), ("software", .list r.software),
    ("failures", .list r.failures), ("unclaimed_pids", .ofStrings (r.unclaimed.map (·.text)))]

end Report

/-! ## Events -/

/-- What happens during a run. -/
inductive Event where
  | started (processes tcp udp signatures : Nat)
  | detected (signature : String) (seed : Seed)
  | task (event : Tasks.Event)
  | judged (signature : String) (verdict : Verdict)
  /-- The tasks of an instance failed, and the run with them. -/
  | stopped (seed : Seed) (e : Error)
  | finished (software failures unclaimed : Nat)
  deriving Inhabited

/-- The path name that was looked up. -/
def Event.consulted? : Event → Option String
  | task (.consulted path) => some path
  | _ => none

/-! ## Engines -/

/-- What a run works with besides its inventory and its catalog. -/
structure Engine where
  registry : Registry
  files : Files.View
  options : Options
  /-- The time that documents carry. -/
  time : String
  /-- The number of levels of task lists inside task lists that there is room for. -/
  levels : Nat

namespace Engine

/-- What runs the tasks. -/
def interpreter (e : Engine) : Interpreter where
  registry := e.registry
  files := e.files
  defaultLimit := e.options.defaultLimit.filter (· != 0)
  directory := e.options.directory
  levels := e.levels

/-! ### Checking -/

/-- Checks the tasks of a place. -/
def checkPlace (e : Engine) (place : String) (tasks : List Document) : Except Error Unit :=
  (Tasks.check e.registry tasks).mapError (.task place)

/-- Checks the tasks of signatures. -/
def checkSignatures (e : Engine) : List Signature → Except Error Unit
  | [] => .ok ()
  | s :: rest => do
    e.checkPlace ("custom_tasks of signature '" ++ s.name ++ "'") s.customTasks
    checkSignatures e rest

/-- Checks all tasks without running any. -/
def check (e : Engine) (c : Catalog) : Except Error Unit := do
  e.checkPlace "pre_tasks" e.options.preTasks
  e.checkPlace "post_tasks" e.options.postTasks
  e.checkSignatures c.signatures

/-! ### Running -/

/-- The state of a run. -/
structure State where
  context : Context
  pool : Pool
  /-- The verdicts so far, latest first. -/
  verdicts : List Verdict := []
  /-- What happened so far, latest first. -/
  journal : List Event := []

/-- A step of a run. -/
abbrev Step := ExceptT Error (StateM State)

/-- What a run knows about the host. -/
structure Scene where
  forest : Forest
  inventory : Inventory
  tcp : List PortRecord
  udp : List PortRecord

/-- The scene of an inventory, with the sockets that proxies serve for containers. -/
def sceneOf (inventory : Inventory) : Scene :=
  let (tcp, udp) := Proxy.infer inventory.processes inventory.containers inventory.tcpListen
    inventory.udpListen
  let forest := ((Forest.build inventory.processes).attachPorts tcp).attachPorts udp
  { forest, inventory, tcp, udp }

/-- Where the tasks of an instance are. -/
def placeOf (s : Signature) (seed : Seed) : String :=
  "tasks of '" ++ s.name ++ "' instance at pid " ++ seed.representative.text

/-- Runs the tasks of an instance: its facts afterwards. -/
def instanceFacts (e : Engine) (s : Signature) (i : Instance) : Run Document := do
  Run.change fun c => { c with facts := i.toDocument }
  e.interpreter.run e.options.preTasks
  e.interpreter.run s.customTasks
  e.interpreter.run e.options.postTasks
  return (← Run.context).facts

/-- What becomes of an instance whose tasks ended. -/
def fateOf (e : Engine) (s : Signature) (place : String) (outcome : Except Tasks.Error Document) :
    Except Error Fate :=
  match outcome with
  | .ok d => match finalize s (some e.time) d with
    | .keep d => .ok (.kept d)
    | .retract => .ok .retracted
  | .error err =>
    if e.options.continueOnError && !err.isConfiguration then .ok (.failed place err)
    else .error (.task place err)

/-- Judges an instance. The processes of one that is retracted go back into the pool. -/
def judge (e : Engine) (s : Signature) (i : Instance) : Step Unit := fun st =>
  let (outcome, session) := e.instanceFacts s i { context := st.context }
  let st := { st with
    context := { session.context with facts := .null }
    journal := session.journal.map Event.task ++ st.journal }
  match e.fateOf s (placeOf s i.seed) outcome with
  | .error err => (.error err, { st with journal := .stopped i.seed err :: st.journal })
  | .ok fate =>
    let verdict : Verdict := ⟨i.seed, fate⟩
    let pool := match fate with
      | .retracted => st.pool.restore i.seed.claimed
      | _ => st.pool
    (.ok (), { st with
      pool, verdicts := verdict :: st.verdicts, journal := .judged s.name verdict :: st.journal })

/-- Judges instances in their order. -/
def judgeAll (e : Engine) (s : Signature) : List Instance → Step Unit
  | [] => pure ()
  | i :: rest => do
    e.judge s i
    judgeAll e s rest

/-- Changes the context that tasks work on. -/
def changeContext (f : Context → Context) : Step Unit := modify fun st =>
  { st with context := f st.context }

/-- Detects the instances of a signature, and takes their processes out of the pool. -/
def detectSeeds (scene : Scene) (s : Signature) : Step (List Seed) := do
  match Detector.ofSignature s with
  | .error err => throw (.signature s.name err)
  | .ok d =>
    let (seeds, pool) := d.detect scene.forest (← get).pool
    modify fun st => { st with
      pool, journal := (seeds.map (.detected s.name)).reverse ++ st.journal }
    return seeds

/-- Detects and judges the instances of a signature. What tasks bind is unbound afterwards. -/
def runSignature (e : Engine) (scene : Scene) (s : Signature) : Step Unit := do
  let seeds ← detectSeeds scene s
  if seeds.isEmpty then return
  match enrich scene.forest scene.inventory s seeds with
  | .error err => throw (.signature s.name err)
  | .ok instances =>
    let saved := (← get).context.checkpoint
    changeContext fun c => s.vars.foldl (fun c (name, d) => c.set name d) c
    e.judgeAll s instances
    changeContext (·.restore saved)

/-- Goes through signatures in their order. -/
def runSignatures (e : Engine) (scene : Scene) : List Signature → Step Unit
  | [] => pure ()
  | s :: rest => do
    e.runSignature scene s
    runSignatures e scene rest

/-- The state before the first signature. -/
def start (e : Engine) (scene : Scene) : State where
  context := { base := scene.inventory.taskVars.extend e.options.vars }
  pool := .ofForest scene.forest

/-- The report of a run that came to its end. -/
def reportOf (id : RunId) (st : State) : Report := ⟨id, st.verdicts.reverse, st.pool.pids⟩

/-- Runs a catalog against an inventory: the report, and what happened, in order. -/
def runTraced (e : Engine) (inventory : Inventory) (c : Catalog) (id : RunId) :
    Except Error Report × List Event :=
  match e.check c with
  | .error err => (.error err, [])
  | .ok _ =>
    let scene := sceneOf inventory
    let first := Event.started scene.forest.nodes.length scene.tcp.length scene.udp.length
      c.signatures.length
    match e.runSignatures scene c.signatures (e.start scene) with
    | (.error err, st) => (.error err, first :: st.journal.reverse)
    | (.ok _, st) =>
      let report := reportOf id st
      let last := Event.finished report.software.length report.failures.length
        report.unclaimed.length
      (.ok report, first :: (last :: st.journal).reverse)

/-- Runs a catalog against an inventory. -/
def run (e : Engine) (inventory : Inventory) (c : Catalog) (id : RunId) : Except Error Report :=
  (e.runTraced inventory c id).1

end Engine

end Discovery
end SoftwareCensus
