import SoftwareCensus.Template.Filter.Sequence
import SoftwareCensus.Template.Test

/-!
# Filters

All filters by name, among them those that apply other filters and tests to the items of a list.
-/

namespace SoftwareCensus.Template

open Args

namespace Filter

/-- The filters that need no other filter. -/
def plain? (name : String) : Option (List Value → Except Fault Value) :=
  [regexFilter?, formatFilter?, structureFilter?, textFilter?, numberFilter?, sequenceFilter?,
    valueFilter?].findSome? (· name)

/-- Keeps the items that pass a test, or those that fail it. The test is of the item itself or of
what a path in it leads to. -/
def selected (keep : Bool) (items : List Value) (path : Option String)
    (test : Option (List Value → Except Fault Bool)) (args : List Value) :
    Except Fault (List Value) :=
  items.filterM fun v => do
    let w ← match path with
      | some p => v.path p
      | none => .ok v
    let passed ← match test with
      | some t => t (w :: args)
      | none => .ok w.isTrue
    return passed == keep

/-- Takes what a path or key in each item leads to. -/
def mapped (items : List Value) (key default : Value) : Except Fault (List Value) :=
  items.mapM fun v =>
    let found : Except Fault Value := match key with
      | .str path _ => v.path path
      | key => if v.isUndefined then .error .undefinedValue else .ok ((v.item? key).getD .undefined)
    match found with
    | .ok .undefined => .ok default
    | .ok w => .ok w
    | .error f => if default.isUndefined then .error f else .ok default

/-- Finds the test of a name, if there is a name. -/
private def testNamed (name : Option String) :
    Except Fault (Option (List Value → Except Fault Bool)) :=
  match name with
  | none => .ok none
  | some name => match testOf? name with
    | some t => .ok (some t)
    | none => .error (.unknownTest name)

/-- Applies the filter of a name. The first argument bounds how many filters are applied through
another one, each of which takes the name of the next from its arguments. -/
def apply : Nat → String → List Value → Except Fault Value
  | 0, name, _ => .error (.unknownFilter name)
  | bound + 1, name, args =>
    let select (keep byPath : Bool) : Except Fault Value := do
      let (v, path, test, rest) ← all args do
        let v ← value
        let path ← if byPath then some <$> required asText else pure none
        let test ← optional asText
        return (v, path, test, ← rest)
      let test ← testNamed test
      return .list (← selected keep (← v.definedItems) path test rest)
    match name with
    | "select" => select true false
    | "reject" => select false false
    | "selectattr" => select true true
    | "rejectattr" => select false true
    | "map" => do
      let (v, args) ← all args do
        let v ← value
        return (v, ← rest)
      let (args, named) := match args.getLast? with
        | some (.named entries) => (args.dropLast, entries)
        | _ => (args, [])
      match ← lookup named "attribute" .ok with
      | some key =>
        if !args.isEmpty then throw (.tooManyArguments none)
        let default := ((named.find? (·.1 == "default")).map (·.2)).getD .undefined
        onlyNamed named ["attribute", "default"]
        return .list (← mapped (← v.definedItems) key default)
      | none =>
        match args with
        | [] => throw (.invalidOperation "filter name is required")
        | .str inner _ :: args =>
          let isKnown := (plain? inner).isSome ||
            ["map", "select", "reject", "selectattr", "rejectattr"].contains inner
          if !isKnown then throw (.unknownFilter inner)
          return .list (← (← v.definedItems).mapM fun w => apply bound inner (w :: args))
        | _ => throw (.invalidOperation "filter name must be a string")
    | name => match plain? name with
      | some f => f args
      | none => .error (.unknownFilter name)

end Filter

/-- Applies a filter to a value and further arguments. -/
def applyFilter (name : String) (args : List Value) : Except Fault Value :=
  Filter.apply (args.length + 1) name args

/-- Whether there is a filter of a name. -/
def isFilter (name : String) : Bool :=
  (Filter.plain? name).isSome ||
    ["map", "select", "reject", "selectattr", "rejectattr"].contains name

/-- Applies a test to a value and further arguments. -/
def applyTest (name : String) (args : List Value) : Except Fault Bool :=
  match name with
  | "filter" => do return isFilter (← Args.all args (required asLetters))
  | "test" => do
    let s ← Args.all args (required asLetters)
    return (testOf? s).isSome || s == "filter" || s == "test"
  | name => match testOf? name with
    | some t => t args
    | none => .error (.unknownTest name)

end SoftwareCensus.Template
