import SoftwareCensus.Files.Tree

/-!
# Where configuration comes from

The catalog and the settings of a run are looked up one by one, each on a ladder of places: what the
command line asks for, what the environment asks for if it is there, and then directories, from
those that were named to that of the system. The first place that has a file wins; if none has one,
there are built-in values.
-/

namespace SoftwareCensus.Config

/-! ## Places -/

/-- The rung of the ladder at which something was found. -/
inductive Origin where
  | commandLine
  | environment
  | userDirectory
  | systemDirectory
  | builtin
  deriving DecidableEq, Inhabited, Repr

/-- The name of a rung. -/
def Origin.label : Origin → String
  | commandLine => "CLI argument"
  | environment => "environment variable"
  | userDirectory => "XDG config"
  | systemDirectory => "system config"
  | builtin => "builtin default"

/-- What the variables of an environment are bound to. -/
abbrev Environment := String → Option String

/-- What the command line asks for. -/
structure Wishes where
  directory : Option String := none
  signatures : Option String := none
  runSettings : Option String := none
  deriving DecidableEq, Inhabited, Repr

/-- Where a file is, if there is one, and the rung at which it was found. -/
structure Location where
  path : Option String := none
  origin : Origin := .builtin
  deriving DecidableEq, Inhabited, Repr

/-- Where the catalog and the settings of a run are. -/
structure Locations where
  signatures : Location := {}
  runSettings : Location := {}
  deriving DecidableEq, Inhabited, Repr

/-! ## Names -/

/-- The variable for the file of the catalog. -/
def signaturesVariable : String := "SWD_SIGNATURES"

/-- The variable for the file of the settings of a run. -/
def runSettingsVariable : String := "SWD_RUN_CONFIG"

/-- The variable for the directory of configuration. -/
def directoryVariable : String := "SWD_CONFIG_DIR"

/-- The names that the file of a catalog may have in a directory, the preferred one first. -/
def signaturesNames : List String := ["signatures.yaml", "signatures.yml", "signatures.json"]

/-- The names that the file of the settings of a run may have in a directory. -/
def runSettingsNames : List String := ["run.toml"]

/-- The name of the directories for this program. -/
def directoryName : String := "software-discovery"

/-! ## Looking up -/

/-- The directory in which a user has the configuration of programs. The home of the user is the one
that the environment names or, without one, that of the user's account. -/
def userBase? (env : Environment) (account : Option String) : Option String :=
  match (env "XDG_CONFIG_HOME").filter Files.isAbsolute with
  | some base => some base
  | none => (((env "HOME").filter (· != "")).or account).map fun home => Files.join home ".config"

/-- The directory for the configuration of this program that a system has. -/
def systemDirectory : String := Files.join "/etc" directoryName

/-- The directories in which files are looked up, in order. The second argument is the directory in
which the user has the configuration of programs, if there is one. -/
def directories (env : Environment) (user wish : Option String) : List (Origin × String) :=
  let rung (origin : Origin) (directory : Option String) : List (Origin × String) :=
    match directory with
    | some directory => [(origin, directory)]
    | none => []
  rung .commandLine wish ++ rung .environment (env directoryVariable) ++
    rung .userDirectory (user.map fun base => Files.join base directoryName) ++
    [(.systemDirectory, systemDirectory)]

/-- The path names at which a file may be in some directories, in order. -/
def candidates (names : List String) (directories : List (Origin × String)) :
    List (Origin × String) :=
  directories.flatMap fun (origin, directory) =>
    names.map fun name => (origin, Files.join directory name)

/-- Looks up a file. What the command line asks for is taken even if it is not there; what the
environment asks for only if it is. -/
def locate (files : Files.View) (wish fromEnvironment : Option String)
    (candidates : List (Origin × String)) : Location :=
  match wish with
  | some path => ⟨some path, .commandLine⟩
  | none => match fromEnvironment.filter fun path => (files path).isThere with
    | some path => ⟨some path, .environment⟩
    | none => match candidates.find? fun (_, path) => (files path).isFile with
      | some (origin, path) => ⟨some path, origin⟩
      | none => {}

/-- Looks up the catalog and the settings of a run. -/
def locateAll (files : Files.View) (env : Environment) (user : Option String) (wishes : Wishes) :
    Locations :=
  let directories := directories env user wishes.directory
  { signatures := locate files wishes.signatures (env signaturesVariable)
      (candidates signaturesNames directories)
    runSettings := locate files wishes.runSettings (env runSettingsVariable)
      (candidates runSettingsNames directories) }

end SoftwareCensus.Config
