import SoftwareCensus.Catalog.Signature
import SoftwareCensus.Config.TaskList
import SoftwareCensus.Document.Toml.Reader

/-!
# Settings of a run

What a run is told besides its inventory and its signatures: which signatures it goes through, the
tasks before and after those of every signature, more variables, and what happens on failures.
-/

namespace SoftwareCensus.Config

open Numeral Source

/-- The settings of a run. -/
structure RunSettings where
  /-- The signatures to use; none of the others, unless one of these is the word `all`. -/
  included : Option (List String) := none
  /-- The signatures not to use, even if they are included. -/
  excluded : List String := []
  preTasksFile : Option String := none
  postTasksFile : Option String := none
  vars : Fields := []
  continueOnError : Bool := false
  /-- The seconds that plugins may take. -/
  defaultTimeout : Option Nat := none
  deriving Inhabited

namespace RunSettings

/-! ## Documents -/

/-- The fields of settings. -/
def fieldNames : List String :=
  ["include_software", "exclude_software", "pre_tasks_file", "post_tasks_file", "vars",
    "continue_on_error", "default_timeout_secs"]

/-- Reads settings. -/
def decode? (s : Source) : Option RunSettings := do
  let r ← s.record? fieldNames
  let included ← r.optional "include_software" (listOf? text?)
  let excluded ← r.withDefault "exclude_software" [] (listOf? text?)
  let preTasksFile ← r.optional "pre_tasks_file" text?
  let postTasksFile ← r.optional "post_tasks_file" text?
  let vars ← r.withDefault "vars" [] Source.fields?
  let continueOnError ← r.withDefault "continue_on_error" false bool?
  let defaultTimeout ← r.optional "default_timeout_secs" (nat? maxUInt64.toNat)
  return { included, excluded, preTasksFile, postTasksFile, vars, continueOnError, defaultTimeout }

/-- Reads a TOML text as settings. -/
def ofToml (text : String) : Except Flaw RunSettings :=
  match (Toml.source? text).bind decode? with
  | some r => .ok r
  | none => .error (.malformed "no run settings")

/-- The document of settings; what is not set does not show. -/
def toDocument (r : RunSettings) : Document :=
  let optional (name : String) (value : Option Document) : List (String × Document) :=
    match value with
    | some d => [(name, d)]
    | none => []
  .ofFields (optional "include_software" (r.included.map .ofStrings) ++
    [("exclude_software", .ofStrings r.excluded)] ++
    optional "pre_tasks_file" (r.preTasksFile.map .str) ++
    optional "post_tasks_file" (r.postTasksFile.map .str) ++
    [("vars", .map r.vars), ("continue_on_error", .bool r.continueOnError)] ++
    optional "default_timeout_secs" (r.defaultTimeout.map fun n => .int n))

/-! ## Changes -/

/-- The settings with the names of files looked up in a directory. -/
def resolvedIn (r : RunSettings) (directory : String) : RunSettings :=
  { r with
    preTasksFile := r.preTasksFile.map (Files.join directory)
    postTasksFile := r.postTasksFile.map (Files.join directory) }

/-! ## Checks -/

/-- The names that a catalog does not have, each as a warning about a setting. -/
def unknownNames (field : String) (c : Catalog) (names : List String) : List String :=
  (names.filter fun name => (c.get? name).isNone).map fun name =>
    field ++ " names unknown signature '" ++ name ++ "'"

/-- What is odd about settings, given the signatures there are. To include nothing is an error. -/
def warnings (r : RunSettings) (c : Catalog) : Except Flaw (List String) := do
  if r.included == some [] then throw .nothingIncluded
  return unknownNames "include_software" c ((r.included.getD []).filter (· != "all")) ++
    unknownNames "exclude_software" c r.excluded ++
    if r.defaultTimeout == some 0 then ["default_timeout_secs = 0 disables task timeouts"] else []

/-- The signatures of a catalog that a run goes through. -/
def select (r : RunSettings) (c : Catalog) : Catalog := c.select r.included r.excluded

end RunSettings

end SoftwareCensus.Config
