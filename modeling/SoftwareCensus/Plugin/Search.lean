import SoftwareCensus.Plugin.Basic
import SoftwareCensus.Regex.Program

/-!
# Plugins that search

Selecting the elements of a list, or of a part of the inventory, that satisfy a filter, and finding
everything under a key.
-/

namespace SoftwareCensus.Plugin

/-! ## Filters -/

mutual

/-- Whether an element satisfies all entries of a filter. -/
def satisfies (element : Document) : List (String × Document) → Except Error Bool
  | [] => .ok true
  | (key, expected) :: rest =>
    match element.field? key with
    | none => .ok false
    | some actual =>
      match satisfiesEntry key actual expected with
      | .ok true => satisfies element rest
      | other => other

/-- Whether a value satisfies an entry of a filter: a mapping is a filter by itself, everything
else is a pattern for the beginning of the value's text. -/
def satisfiesEntry (key : String) (actual : Document) : Document → Except Error Bool
  | .map filter => if actual.isMap then satisfies actual filter else .ok false
  | expected =>
    let pattern := "^(?:" ++ expected.display ++ ")"
    match Regex.Matcher.compile {} pattern with
    | .ok m => .ok (m.isMatch actual.display)
    | .error f =>
      .error (.execution ("invalid filter for '" ++ key ++ "': " ++ f.message pattern))

end

/-- The elements that satisfy a filter. -/
def select (filter : Fields) : List Document → Except Error (List Document)
  | [] => .ok []
  | d :: rest => do
    let found ← satisfies d filter
    let others ← select filter rest
    return if found then d :: others else others

/-- The filter among the arguments. -/
def filterOf (call : Call) : Fields := ((call.arg? "filter").bind Document.asMap?).getD []

/-- The field for a filter. -/
def filterField : ArgField := { name := "filter", type := .dict, default := some .empty }

/-- Selects elements of a list. -/
def findElements : Plugin where
  name := "find_elements"
  description := "Select the elements of a list that match a filter"
  args := .fields [{ name := "source", type := .list, required := true }, filterField]
  run call := call.answer do
    let source := ((call.arg? "source").bind Document.asList?).getD []
    return .list (← select (filterOf call) source)

/-! ## Parts of the inventory -/

/-- A list among the variables. -/
def listVar (call : Call) (name : String) : List Document :=
  ((call.lookup name).bind Document.asList?).getD []

/-- A plugin that selects elements of a part of the inventory. -/
def finder (name description : String) (elements : Call → List Document) : Plugin where
  name := name
  description := description
  args := .fields [filterField]
  run call := call.answer do return .list (← select (filterOf call) (elements call))

/-- Selects processes. -/
def findProcesses : Plugin :=
  finder "find_processes" "Select processes matching a filter" (listVar · "processes")

/-- Selects listening sockets. -/
def findPorts : Plugin :=
  finder "find_ports" "Select tcp/udp listening ports matching a filter" fun call =>
    listVar call "tcp_listen" ++ listVar call "udp_listen"

/-- Selects packages of all families. -/
def findPackages : Plugin :=
  finder "find_packages" "Select installed packages matching a filter" fun call =>
    (((call.lookup "packages").bind Document.asMap?).getD []).flatMap fun (_, entries) =>
      entries.asList?.getD []

/-- Selects containers. -/
def findContainers : Plugin :=
  finder "find_containers" "Select containers matching a filter" fun call =>
    (((call.lookup "dockers").bind (·.field? "containers")).bind Document.asList?).getD []

/-! ## Keys -/

mutual

/-- Everything that stands under a key somewhere in a value, outermost first. What is found is
searched as well. -/
def valuesUnder (key : String) : Document → List Document
  | .map fields => (Fields.get? fields key).toList ++ valuesUnderEntries key fields
  | .list items => valuesUnderItems key items
  | _ => []

/-- Everything that stands under a key somewhere in the items of a list. -/
def valuesUnderItems (key : String) : List Document → List Document
  | [] => []
  | d :: rest => valuesUnder key d ++ valuesUnderItems key rest

/-- Everything that stands under a key somewhere in the values of a mapping. -/
def valuesUnderEntries (key : String) : List (String × Document) → List Document
  | [] => []
  | (_, d) :: rest => valuesUnder key d ++ valuesUnderEntries key rest

end

/-- Finds everything under a key. -/
def findInDict : Plugin where
  name := "find_in_dict"
  description := "Collect every value stored under a key in a nested structure"
  args := .fields [{ name := "item", type := .str, required := true },
    { name := "source", type := .raw, required := true }]
  run call := call.answer (.ok (.list
    (((call.arg? "source").map (valuesUnder (call.text "item"))).getD [])))

end SoftwareCensus.Plugin
