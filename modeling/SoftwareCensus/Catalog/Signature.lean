import SoftwareCensus.Document.Json.Reader
import SoftwareCensus.Document.Json.Printer
import SoftwareCensus.Document.Yaml.Reader
import SoftwareCensus.Document.Decode
import SoftwareCensus.Files.Tree
import SoftwareCensus.Regex.Program
import SoftwareCensus.Text.Case

/-!
# Signatures

How one piece of software is recognised, from the command lines of its processes and the names of
its packages, and what is done with every instance of it. The order of a catalog is the order in
which its signatures claim processes.
-/

namespace SoftwareCensus

open Source

/-! ## Signatures -/

/-- The process at which a match is reported. -/
inductive ProcessType where
  /-- The process that matches. -/
  | parent
  /-- The parent of the process that matches. -/
  | child
  deriving DecidableEq, Inhabited, Repr

/-- The name of a process type. -/
def ProcessType.name : ProcessType → String
  | parent => "parent"
  | child => "child"

/-- How one piece of software is recognised. -/
structure Signature where
  name : String
  cmdRegexp : String
  pkgRegexp : Option String := none
  /-- A pattern for images; it has to compile but is not used. -/
  dockerRegexp : Option String := none
  processType : ProcessType := .parent
  /-- Whether the children of the reported process stay in the result. -/
  returnChildren : Bool := false
  /-- Whether the packages stay in the result. -/
  returnPackages : Bool := false
  customTasks : List Document := []
  vars : Fields := []
  deriving Inhabited

namespace Signature

/-- Why there are no signatures. -/
inductive Error where
  | unreadable (why : String)
  | notJson
  | notYaml
  | invalid (why : String)
  | invalidRegex (signature pattern why : String)
  deriving DecidableEq, Inhabited, Repr

/-- The text of an error. -/
def Error.message : Error → String
  | unreadable why => "I/O error: " ++ why
  | notJson => "JSON parse error: not a catalog"
  | notYaml => "YAML parse error: not a catalog"
  | invalid why => "Invalid signature: " ++ why
  | invalidRegex signature pattern why =>
    "Invalid regex pattern '" ++ pattern ++ "' in signature '" ++ signature ++ "': " ++ why

/-! ## Patterns -/

/-- Compiles a pattern for which the case of letters does not matter. -/
def compile (signature pattern : String) : Except Error Regex.Matcher :=
  match Regex.Matcher.compile { ignoreCase := true } pattern with
  | .ok m => .ok m
  | .error f => .error (.invalidRegex signature pattern (f.message pattern))

/-- The pattern of command lines. -/
def cmdMatcher (s : Signature) : Except Error Regex.Matcher := compile s.name s.cmdRegexp

/-- The pattern of package families, if there is one. -/
def pkgMatcher (s : Signature) : Except Error (Option Regex.Matcher) :=
  match s.pkgRegexp with
  | none | some "" => .ok none
  | some pattern => (compile s.name pattern).map some

/-- The pattern of images, if there is one. -/
def dockerMatcher (s : Signature) : Except Error (Option Regex.Matcher) :=
  match s.dockerRegexp with
  | none => .ok none
  | some pattern => (compile s.name pattern).map some

/-- Checks that a signature makes sense. -/
def validate (s : Signature) : Except Error Unit := do
  if Text.trim s.name == "" then throw (.invalid "name cannot be empty")
  if s.cmdRegexp == "" then
    throw (.invalid ("signature '" ++ s.name ++ "' has an empty cmd_regexp"))
  let _ ← s.cmdMatcher
  let _ ← s.pkgMatcher
  let _ ← s.dockerMatcher
  match s.customTasks.findIdx? (!·.isMap) with
  | some i => throw (.invalid
      ("custom_tasks[" ++ toString i ++ "] of signature '" ++ s.name ++ "' must be a mapping"))
  | none => pure ()

/-- The patterns of a signature that makes sense compile. -/
theorem exists_matchers {s : Signature} (h : s.validate = .ok ()) :
    (∃ m, s.cmdMatcher = .ok m) ∧ ∃ m?, s.pkgMatcher = .ok m? := by
  rw [validate] at h
  cases hname : Text.trim s.name == "" with
  | true =>
    rw [hname] at h
    cases h
  | false =>
    cases hempty : s.cmdRegexp == "" with
    | true =>
      rw [hname, hempty] at h
      cases h
    | false =>
      rw [hname, hempty] at h
      cases hcmd : s.cmdMatcher with
      | error err =>
        rw [hcmd] at h
        cases h
      | ok m =>
        cases hpkg : s.pkgMatcher with
        | error err =>
          rw [hcmd, hpkg] at h
          cases h
        | ok m? => exact ⟨⟨m, rfl⟩, m?, rfl⟩

/-! ## Documents -/

/-- The fields of a signature in the order in which they are written. -/
def fieldNames : List String :=
  ["name", "cmd_regexp", "pkg_regexp", "docker_regexp", "process_type", "return_children",
    "return_packages", "custom_tasks", "vars"]

/-- Reads a signature. -/
def decode? (s : Source) : Option Signature := do
  let r ← s.record? fieldNames
  let name ← r.required "name" text?
  let cmdRegexp ← r.required "cmd_regexp" text?
  let pkgRegexp ← r.optional "pkg_regexp" text?
  let dockerRegexp ← r.optional "docker_regexp" text?
  let processType ← r.withDefault "process_type" .parent
    (choice? [("parent", ProcessType.parent), ("child", ProcessType.child)])
  let returnChildren ← r.withDefault "return_children" false bool?
  let returnPackages ← r.withDefault "return_packages" false bool?
  let customTasks ← r.withDefault "custom_tasks" [] (listOf? toDocument?)
  let vars ← r.withDefault "vars" [] Source.fields?
  return { name, cmdRegexp, pkgRegexp, dockerRegexp, processType, returnChildren, returnPackages,
           customTasks, vars }

/-- The entries of a signature in the order in which they are written. -/
def entries (s : Signature) : List (String × Document) :=
  let optional (name : String) (value : Option String) : List (String × Document) :=
    match value with
    | some v => [(name, .str v)]
    | none => []
  [("name", .str s.name), ("cmd_regexp", .str s.cmdRegexp)] ++
    optional "pkg_regexp" s.pkgRegexp ++ optional "docker_regexp" s.dockerRegexp ++
    [("process_type", .str s.processType.name), ("return_children", .bool s.returnChildren),
      ("return_packages", .bool s.returnPackages)] ++
    (if s.customTasks.isEmpty then [] else [("custom_tasks", .list s.customTasks)]) ++
    (if s.vars.isEmpty then [] else [("vars", .map s.vars)])

/-- The document of a signature. -/
def toDocument (s : Signature) : Document := .ofFields s.entries

end Signature

/-! ## Catalogs -/

/-- Signatures in the order in which they claim processes. -/
structure Catalog where
  signatures : List Signature
  deriving Inhabited

namespace Catalog

/-- The names of all signatures. -/
def names (c : Catalog) : List String := c.signatures.map (·.name)

/-- The first signature of a name. -/
def get? (c : Catalog) (name : String) : Option Signature := c.signatures.find? (·.name == name)

/-- Checks signatures one after another; no name may have been seen before. -/
private def validateFrom (seen : List String) : List Signature → Except Signature.Error Unit
  | [] => .ok ()
  | s :: rest => do
    s.validate
    if seen.contains s.name then
      throw (.invalid ("duplicate signature name '" ++ s.name ++ "'"))
    validateFrom (s.name :: seen) rest

/-- Checks that every signature makes sense and that no two have one name. -/
def validate (c : Catalog) : Except Signature.Error Unit := validateFrom [] c.signatures

private theorem validate_of_validateFrom {seen : List String} {signatures : List Signature}
    (h : validateFrom seen signatures = .ok ()) {s : Signature} (hs : s ∈ signatures) :
    s.validate = .ok () := by
  induction signatures generalizing seen with
  | nil => cases hs
  | cons first rest ih =>
    rw [validateFrom] at h
    cases hfirst : first.validate with
    | error err =>
      rw [hfirst] at h
      cases h
    | ok _ =>
      cases hseen : seen.contains first.name with
      | true =>
        rw [hfirst, hseen] at h
        cases h
      | false =>
        rw [hfirst, hseen] at h
        rcases List.mem_cons.mp hs with rfl | hs
        · exact hfirst
        · exact ih h hs

/-- Every signature of a catalog that is valid makes sense. -/
theorem validate_of_mem {c : Catalog} (h : c.validate = .ok ()) {s : Signature}
    (hs : s ∈ c.signatures) : s.validate = .ok () :=
  validate_of_validateFrom h hs

/-- The signatures to use, in their order. Without a list to include, or with the word `all` in
it, these are all that are not excluded. -/
def select (c : Catalog) (included : Option (List String)) (excluded : List String) : Catalog :=
  let isIncluded (s : Signature) : Bool := match included with
    | none => true
    | some names => names.contains "all" || names.contains s.name
  ⟨c.signatures.filter fun s => isIncluded s && !excluded.contains s.name⟩

/-- Reads a catalog: a list of signatures, or a mapping with that list. -/
def decode? (s : Source) : Option Catalog := do
  let s ← s.settled?
  match listOf? Signature.decode? s with
  | some signatures => return ⟨signatures⟩
  | none =>
    let r ← Record.ofEntries? ["software_list"] (← s.entries?)
    return ⟨← r.required "software_list" (listOf? Signature.decode?)⟩

/-- Checks what was read. -/
private def checked (c? : Option Catalog) (otherwise : Signature.Error) :
    Except Signature.Error Catalog := do
  match c? with
  | none => throw otherwise
  | some c =>
    c.validate
    return c

/-- Reads a YAML text as a catalog. -/
def ofYaml (text : String) : Except Signature.Error Catalog :=
  checked ((Yaml.source? text).bind decode?) .notYaml

/-- Reads a JSON text as a catalog. -/
def ofJson (text : String) : Except Signature.Error Catalog :=
  checked ((Json.source? text).bind decode?) .notJson

/-- Reads the text of a file as a catalog: as JSON if the name of the file says so, else as YAML. -/
def ofFileText (path text : String) : Except Signature.Error Catalog :=
  if Text.lower ((Files.extension? path).getD "") == "json" then ofJson text else ofYaml text

/-- Reads a file as a catalog. -/
def ofFile (files : Files.View) (path : String) : Except Signature.Error Catalog :=
  match (files path).read with
  | .ok text => ofFileText path text
  | .error fault => .error (.unreadable fault.message)

/-- The document of a catalog. -/
def toDocument (c : Catalog) : Document :=
  .ofFields [("software_list", .list (c.signatures.map Signature.toDocument))]

/-- The JSON text of a catalog, with the fields of signatures in their order. -/
def toJson (c : Catalog) : String :=
  (Document.map [("software_list", .list (c.signatures.map fun s => .map s.entries))]).toPrettyJson

/-! ## The built-in catalog -/

/-- The catalog that is used when there is no other. -/
def builtin : Catalog := ⟨[
  { name := "Nginx WebServer", cmdRegexp := "nginx\\:?\\s*master.*(nginx)?",
    pkgRegexp := some "nginx", dockerRegexp := some "nginx:" },
  { name := "PostgreSQL Database", cmdRegexp := "postgres:",
    pkgRegexp := some "postgresql.*-server|postgresql-\\d", dockerRegexp := some "postgres:",
    processType := .child },
  { name := "MariaDB DatabaseServer", cmdRegexp := "/MARIADBD(\\s|$)",
    pkgRegexp := some "mariadb-serve", dockerRegexp := some "mariadb(?:-.*):" },
  { name := "MySQL DatabaseServer", cmdRegexp := "/mysqld(\\s|$)",
    pkgRegexp := some "mysql-serve", dockerRegexp := some "mysql(?:-.*):" },
  { name := "Apache Tomcat Servlet Engine",
    cmdRegexp := "\\.apache\\.tomcat\\.startup|\\.apache\\.catalina\\.startup",
    pkgRegexp := some "tomcat", dockerRegexp := some "tomcat(?:-.*):", processType := .child }]⟩

end Catalog

end SoftwareCensus
