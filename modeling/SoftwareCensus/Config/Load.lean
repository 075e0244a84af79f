import SoftwareCensus.Config.RunSettings
import SoftwareCensus.Config.Snapshot
import SoftwareCensus.Config.Sources
import SoftwareCensus.Discovery.Run

/-!
# Loading configuration

Everything that a run is configured with, read from the places where it was found. What is wrong
with it is reported in the order in which it is read: the catalog, the settings of the run, and the
tasks before and after those of every signature.
-/

namespace SoftwareCensus.Config

/-- What a run is configured with. -/
structure Loaded where
  /-- All signatures, whether the run goes through them or not. -/
  catalog : Catalog
  settings : RunSettings
  preTasks : List Document
  postTasks : List Document
  locations : Locations
  snapshot : Snapshot
  /-- What is odd, but no error. -/
  warnings : List String
  deriving Inhabited

namespace Loaded

/-- The signatures that the run goes through. -/
def selected (l : Loaded) : Catalog := l.settings.select l.catalog

/-- The settings of the engine that runs them. -/
def options (l : Loaded) : Discovery.Options where
  continueOnError := l.settings.continueOnError
  defaultLimit := l.settings.defaultTimeout.map (· * Tasks.nanosPerSecond)
  preTasks := l.preTasks
  postTasks := l.postTasks
  vars := l.settings.vars
  directory := l.locations.runSettings.path.bind Files.parent?

end Loaded

/-- Reads the catalog at a place, with the text it was read from. -/
def loadCatalog (files : Files.View) (path : Option String) :
    Except Error (Catalog × Option String) := do
  match path with
  | none => return (.builtin, none)
  | some path =>
    let content ← readFile files path
    let catalog ← (Catalog.ofFileText path content).mapError (.signature path)
    return (catalog, some content)

/-- Reads the settings at a place, with the text they were read from. The files they name are in
the directory of theirs. -/
def loadSettings (files : Files.View) (path : Option String) :
    Except Error (RunSettings × Option String) := do
  match path with
  | none => return ({}, none)
  | some path =>
    let content ← readFile files path
    let settings ← (RunSettings.ofToml content).mapError (.invalid path)
    return (settings.resolvedIn ((Files.parent? path).getD "."), some content)

/-- Reads the tasks of a file, if there is one. -/
def loadTasks (files : Files.View) (path : Option String) : Except Error (List Document) :=
  match path with
  | none => .ok []
  | some path => loadTaskList files path

/-- Reads everything from the places where it is. -/
def loadFrom (files : Files.View) (locations : Locations) : Except Error Loaded := do
  let (catalog, catalogText) ← loadCatalog files locations.signatures.path
  let (settings, settingsText) ← loadSettings files locations.runSettings.path
  let warnings ← (settings.warnings catalog).mapError .inconsistent
  let preTasks ← loadTasks files settings.preTasksFile
  let postTasks ← loadTasks files settings.postTasksFile
  let snapshot := .take catalog.names locations catalogText settingsText
  return { catalog, settings, preTasks, postTasks, locations, snapshot, warnings }

/-- Finds and reads everything. -/
def load (files : Files.View) (env : Environment) (user : Option String) (wishes : Wishes) :
    Except Error Loaded :=
  loadFrom files (locateAll files env user wishes)

/-! ## Files that are looked up -/

/-- The path names that are looked up to find and read everything, as far as the files say which
these are. -/
def consulted (files : Files.View) (env : Environment) (user : Option String) (wishes : Wishes) :
    List String :=
  let directories := directories env user wishes.directory
  let named := [wishes.signatures, wishes.runSettings, env signaturesVariable,
    env runSettingsVariable].filterMap id
  let found := (candidates (signaturesNames ++ runSettingsNames) directories).map (·.2)
  let tasks := match loadSettings files (locateAll files env user wishes).runSettings.path with
    | .ok (r, _) => r.preTasksFile.toList ++ r.postTasksFile.toList
    | .error _ => []
  named ++ found ++ tasks

end SoftwareCensus.Config
