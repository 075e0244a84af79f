import SoftwareCensus.Plugin.Basic

/-!
# Contexts of tasks

What tasks see and change: variables that are fixed for a run with bindings over them, the facts of
the instance, and layers of environment entries.
-/

namespace SoftwareCensus.Tasks

/-- The state that a list of tasks runs in. -/
structure Context where
  /-- The variables that are fixed. -/
  base : Fields := []
  /-- What tasks bind; these bindings hide the fixed ones. -/
  overlay : Fields := []
  /-- The facts of the instance. -/
  facts : Document := .null
  /-- The layers of environment entries, outermost first. -/
  environment : List Fields := []
  deriving Inhabited

/-- A state of the bindings to come back to. -/
structure Checkpoint where
  overlay : Fields
  depth : Nat
  deriving Inhabited

namespace Context

/-- The variables without the facts of the instance. -/
def vars (c : Context) (name : String) : Option Document :=
  (c.overlay.get? name).or (c.base.get? name)

/-- The variables that templates see. -/
def lookup (c : Context) (name : String) : Option Document :=
  if name == instanceKey then some c.facts else c.vars name

/-- Binds a variable. -/
def set (c : Context) (name : String) (d : Document) : Context :=
  { c with overlay := c.overlay.insert name d }

/-- Removes what tasks bound a variable to. -/
def remove (c : Context) (name : String) : Context :=
  { c with overlay := c.overlay.erase name }

/-- Binds a variable to what it was bound to before, if it was. -/
def rebind (c : Context) (name : String) (before : Option Document) : Context :=
  match before with
  | some d => c.set name d
  | none => c.remove name

/-- Adds a layer of environment entries. -/
def pushEnvironment (c : Context) (layer : Fields) : Context :=
  { c with environment := c.environment ++ [layer] }

/-- Removes the innermost layer of environment entries. -/
def popEnvironment (c : Context) : Context :=
  { c with environment := c.environment.dropLast }

/-- The environment entries of all layers; inner layers win. -/
def environmentEntries (c : Context) : Fields := c.environment.foldl Fields.extend []

/-- Notes the state of the bindings. -/
def checkpoint (c : Context) : Checkpoint := ⟨c.overlay, c.environment.length⟩

/-- Goes back to a state of the bindings. -/
def restore (c : Context) (saved : Checkpoint) : Context :=
  { c with overlay := saved.overlay, environment := c.environment.take saved.depth }

end Context

end SoftwareCensus.Tasks
