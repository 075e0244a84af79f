import SoftwareCensus.Document.Path
import SoftwareCensus.Plugin.Basic

/-!
# Plugins that edit facts

Setting facts by name, removing them by path, and setting them by path.
-/

namespace SoftwareCensus.Plugin

/-! ## Setting facts by name -/

/-- The value of a fact; words for truth values become such. -/
def factValue (d : Document) : Document :=
  match d with
  | .str s =>
    let word := Text.asciiLower s
    if word == "true" || word == "yes" then .bool true
    else if word == "false" || word == "no" then .bool false
    else .str s
  | d => d

/-- The facts that are set; all names have to be names of variables. -/
def factsToSet : List (String × Document) → Except Error Fields
  | [] => .ok []
  | (key, d) :: rest =>
    if !isIdentifier key then .error (.execution ("The variable name '" ++ key ++
      "' is not valid. Variables must start with a letter or underscore character, and contain " ++
      "only letters, numbers and underscores."))
    else (factsToSet rest).map ((key, factValue d) :: ·)

/-- Merges facts into the instance. -/
def setInstanceFact : Plugin where
  name := "set_instance_fact"
  description := "Set top-level facts on the instance"
  args := .mapping
  run call := call.answer do
    match call.args.asMap?.getD [] with
    | [] => throw (.execution
        "No key/value pairs provided, at least one is required for this action to succeed")
    | pairs => return .ofFields [(instanceKey, .map (← factsToSet pairs))]

/-! ## Removing facts by path -/

/-- Removes what stands at the paths, one after another: what is left, and the paths at which
something was. -/
def removePaths (facts : Document) (paths : List String) : Document × List String :=
  paths.foldl (fun (facts, removed) path =>
    match Path.read path with
    | .ok steps => match facts.removeAt? steps with
      | some facts => (facts, removed ++ [path])
      | none => (facts, removed)
    | .error _ => (facts, removed)) (facts, [])

/-- Removes facts. -/
def delInstanceFact : Plugin where
  name := "del_instance_fact"
  description := "Remove facts from the instance by dotted path"
  args := .list
  run call :=
    match call.args.asList?.getD [] with
    | [] => call.answer (.error (.execution
        "No keys provided, at least one is required for this action to succeed"))
    | paths =>
      let (facts, removed) := removePaths call.facts (paths.map Document.display)
      .finished (.ok (.ofFields [("deleted_from_instance", .ofStrings removed)])) facts

/-! ## Setting facts by path -/

/-- Whether an update has a path that can be read, and a value. -/
def isUpdate (d : Document) : Bool :=
  match (d.field? "path").bind Document.asStr? with
  | some path => (Path.read path).toBool && (d.field? "value").isSome
  | none => false

/-- Writes values to their paths, one after another, until one cannot be written. -/
def writeUpdates (facts : Document) : List Document → Option Error × Document
  | [] => (none, facts)
  | update :: rest =>
    let text := ((update.field? "path").bind Document.asStr?).getD ""
    match Path.read text with
    | .error flaw => (some (.execution (flaw.messageFor text)), facts)
    | .ok steps =>
      let w := facts.setAt steps ((update.field? "value").getD .null)
      match w.obstacle with
      | some o =>
        (some (.execution ("cannot update '" ++ text ++ "': " ++ o.message)), w.document)
      | none => writeUpdates w.document rest

/-- Sets facts at places inside others. -/
def updateInstanceFact : Plugin where
  name := "update_instance_fact"
  description := "Set nested instance facts by path"
  args := .fields [{ name := "updates", type := .list, required := true }]
  check args :=
    match (((args.field? "updates").bind Document.asList?).getD []).findIdx? (!isUpdate ·) with
    | some i => .error (.badUpdate i)
    | none => .ok ()
  run call :=
    let updates := ((call.arg? "updates").bind Document.asList?).getD []
    match writeUpdates call.facts updates with
    | (some e, facts) => .finished (.error e) facts
    | (none, facts) =>
      let paths := updates.map fun u => ((u.field? "path").bind Document.asStr?).getD ""
      .finished (.ok (.ofFields [("updated", .ofStrings paths)])) facts

end SoftwareCensus.Plugin
