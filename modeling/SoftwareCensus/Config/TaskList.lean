import SoftwareCensus.Document.Yaml.Reader
import SoftwareCensus.Catalog.Signature
import SoftwareCensus.Failure
import SoftwareCensus.Files.Tree

/-!
# Task lists and flaws of configurations

What can be wrong with the files that a run is configured by, and reading a list of tasks from one.
-/

namespace SoftwareCensus.Config

/-! ## Flaws -/

/-- What is wrong with the content of a file. -/
inductive Flaw where
  | malformed (why : String)
  /-- No signature is included. -/
  | nothingIncluded
  | notTaskList (field kind : String)
  | notTask (field : String) (index : Nat) (kind : String)
  deriving DecidableEq, Inhabited, Repr

namespace Flaw

/-- The text of a flaw. -/
def message : Flaw → String
  | malformed why => "Parse error: " ++ why
  | nothingIncluded =>
    "Semantic validation failed: include_software is empty; omit it or use [\"all\"] to select " ++
      "every signature"
  | notTaskList field kind =>
    "Invalid value for " ++ field ++ ": expected a list of tasks, got " ++ kind
  | notTask field index kind =>
    "Invalid value for " ++ field ++ "[" ++ toString index ++ "]: expected a task mapping, got " ++
      kind

/-- The code of a flaw. -/
def code : Flaw → Nat
  | malformed _ => 61
  | nothingIncluded => 63
  | notTaskList _ _ | notTask _ _ _ => 65

end Flaw

/-- Why there is no configuration. -/
inductive Error where
  | notFound (path : String)
  | unreadable (path : String) (fault : Files.ReadFault)
  | signature (path : String) (e : Signature.Error)
  | invalid (path : String) (flaw : Flaw)
  | inconsistent (flaw : Flaw)
  deriving DecidableEq, Inhabited, Repr

namespace Error

/-- The text of an error. -/
def message : Error → String
  | notFound path => "Config file not found: " ++ path
  | unreadable path fault => "I/O error reading " ++ path ++ ": " ++ fault.message
  | signature path e => "Invalid signature catalog " ++ path ++ ": " ++ e.message
  | invalid path flaw => "Invalid config file " ++ path ++ ": " ++ flaw.message
  | inconsistent flaw => "Semantic validation failed: " ++ flaw.message

/-- The failure that an error is. -/
def toFailure (e : Error) : Failure :=
  match e with
  | signature _ _ => .invalidSignature e.message
  | invalid _ _ | inconsistent _ => .invalidRunConfig e.message
  | notFound _ | unreadable _ _ => .config e.message

end Error

/-! ## Task lists -/

/-- Reads a file that has to be there. -/
def readFile (files : Files.View) (path : String) : Except Error String :=
  if !(files path).isThere then .error (.notFound path)
  else (files path).read.mapError (.unreadable path)

/-- The tasks of a document: a list of mappings, or nothing at all. -/
def taskList (field : String) (d : Document) : Except Flaw (List Document) :=
  match d with
  | .null => .ok []
  | .list tasks =>
    match tasks.findIdx? (!·.isMap) with
    | some i => .error (.notTask field i ((tasks[i]?.map Document.kind).getD ""))
    | none => .ok tasks
  | d => .error (.notTaskList field d.kind)

/-- The tasks of a file. -/
def loadTaskList (files : Files.View) (path : String) : Except Error (List Document) := do
  let content ← readFile files path
  match Yaml.read? content with
  | none => throw (.invalid path (.malformed "not a document"))
  | some d => (taskList path d).mapError (.invalid path)

end SoftwareCensus.Config
