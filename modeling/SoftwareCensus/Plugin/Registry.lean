import SoftwareCensus.Plugin.Checks
import SoftwareCensus.Plugin.Entries
import SoftwareCensus.Plugin.Facts
import SoftwareCensus.Plugin.Search

/-!
# Registries

The plugins that tasks can name.
-/

namespace SoftwareCensus

/-- Plugins in ascending order of their names, of which none occurs twice. -/
structure Registry where
  plugins : List Plugin := []

namespace Registry

/-- The names of what a task can do without a plugin. -/
def reserved : List String := ["block", "include_tasks"]

/-- Adds a plugin to plugins in the order of their names, instead of one of the same name. -/
def insertPlugin (p : Plugin) : List Plugin → List Plugin
  | [] => [p]
  | q :: rest =>
    if p.name < q.name then p :: q :: rest
    else if p.name == q.name then p :: rest
    else q :: insertPlugin p rest

/-- Adds a plugin. One with a reserved name is ignored, and of several with one name the last one
stays. -/
def register (r : Registry) (p : Plugin) : Registry :=
  if reserved.contains p.name then r else ⟨insertPlugin p r.plugins⟩

/-- The registry with these plugins. -/
def ofList (plugins : List Plugin) : Registry := plugins.foldl register {}

/-- The plugin of a name. -/
def get? (r : Registry) (name : String) : Option Plugin := r.plugins.find? (·.name == name)

/-- Whether there is a plugin of a name. -/
def contains (r : Registry) (name : String) : Bool := (r.get? name).isSome

/-- The names in ascending order. -/
def names (r : Registry) : List String := r.plugins.map (·.name)

/-- The built-in plugins. -/
def builtins : List Plugin :=
  [.setInstanceFact, .delInstanceFact, .updateInstanceFact, .addBindingInfo, .addEndpointInfo,
    .addFileInfo, .addMessageInfo, .addVersionInfo, .findInDict, .findElements, .findProcesses,
    .findPorts, .findPackages, .findContainers, .printVar, .assertPlugin]

/-- The registry of the built-in plugins. -/
def builtin : Registry := ofList builtins

end Registry

end SoftwareCensus
