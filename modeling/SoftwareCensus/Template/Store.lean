import SoftwareCensus.Template.Expr
import SoftwareCensus.Template.Method

/-!
# The state of an evaluation

The bindings of names in nested scopes, the namespaces and macros made so far, and the text
written so far.

A macro sees the names that it refers to as they were when it was defined, kept up to date by the
scope it was defined in. Those bindings are a closure; scopes and macros refer to it by number.
-/

namespace SoftwareCensus.Template

/-- The loop that a scope belongs to. -/
structure LoopState where
  entries : List (String × Value)
  depth : Nat
  /-- The values that were last asked about. -/
  lastSeen : Option (List Value)
  /-- What is done again when the loop is called. -/
  again : Option (Expr × List Stmt)
  deriving Inhabited

/-- A scope. -/
structure Scope where
  vars : List (String × Value) := []
  loop : Option LoopState := none
  /-- The closure that is kept up to date with the scope. -/
  closure : Option Nat := none
  /-- The closure that the scope of a macro is based on. -/
  base : Option Nat := none
  deriving Inhabited

/-- A macro. -/
structure Macro where
  head : MacroHead
  body : List Stmt
  closure : Nat
  takesCaller : Bool
  deriving Inhabited

/-- What a template can see of a macro. -/
def Macro.entries (m : Macro) : List (String × Value) :=
  [("name", .text m.head.name), ("arguments", .list (m.head.params.map Value.text)),
    ("caller", .bool m.takesCaller)]

/-- The state of an evaluation. -/
structure Store where
  /-- The scopes, innermost first. -/
  scopes : List Scope
  /-- How deep the scopes of macros around these lie. -/
  outer : Nat := 0
  namespaces : List (List (String × Value)) := []
  closures : List (List (String × Value)) := []
  macros : List Macro := []
  blocks : List (String × List Stmt) := []
  /-- The pieces written so far, latest first. -/
  written : List String := []
  deriving Inhabited

/-- An evaluation. -/
abbrev Eval := StateT Store (Except Fault)

/-- How a list of statements ended. -/
inductive Flow where
  | next
  | stopLoop
  | nextItem
  deriving DecidableEq, Inhabited

/-- Binds a name in a list of bindings. -/
def bindIn (vars : List (String × Value)) (name : String) (v : Value) : List (String × Value) :=
  (name, v) :: vars.filter (·.1 != name)

/-- The value that a name is bound to in a list of bindings. -/
def lookupIn (vars : List (String × Value)) (name : String) : Option Value :=
  (vars.find? (·.1 == name)).map (·.2)

namespace Store

/-- How many scopes may be nested. -/
def maxDepth : Nat := 500

/-- The value of a name in a scope. -/
private def inScope? (s : Store) (scope : Scope) (name : String) : Option Value :=
  match lookupIn scope.vars name with
  | some v => some v
  | none =>
    let ofLoop := if name == "loop" then scope.loop.map fun l => Value.loop l.entries else none
    match ofLoop with
    | some v => some v
    | none => scope.base.bind fun id => lookupIn (s.closures.getD id []) name

/-- The value of a name. -/
def find? (s : Store) (name : String) : Option Value :=
  match s.scopes.findSome? fun scope => s.inScope? scope name with
  | some v => some v
  | none => if globalNames.contains name then some (.function name) else none

/-- Changes the innermost scope. -/
def modifyTop (s : Store) (f : Scope → Scope) : Store :=
  match s.scopes with
  | [] => s
  | top :: rest => { s with scopes := f top :: rest }

/-- Binds a name in a closure. -/
private def bindInClosure (s : Store) (id : Nat) (name : String) (v : Value) : Store :=
  { s with closures := s.closures.modify id (bindIn · name v) }

/-- Binds a name in the innermost scope. -/
def bind (s : Store) (name : String) (v : Value) : Store :=
  let s := match (s.scopes.head?.bind (·.closure)) with
    | some id => s.bindInClosure id name v
    | none => s
  s.modifyTop fun top => { top with vars := bindIn top.vars name v }

/-- The closure of the innermost scope, with all these names bound. -/
def enclose (s : Store) (names : List String) : Store × Nat :=
  let (s, id) := match s.scopes.head?.bind (·.closure) with
    | some id => (s, id)
    | none =>
      let id := s.closures.length
      let s := { s with closures := s.closures ++ [[]] }
      (s.modifyTop fun top => { top with closure := some id }, id)
  let s := names.foldl (fun s name =>
    if (lookupIn (s.closures.getD id []) name).isSome then s
    else s.bindInClosure id name ((s.find? name).getD .undefined)) s
  (s, id)

/-- The innermost loop. -/
def currentLoop? (s : Store) : Option LoopState := s.scopes.findSome? (·.loop)

/-- Changes the innermost loop. -/
def modifyLoop (s : Store) (f : LoopState → LoopState) : Store :=
  let rec go : List Scope → List Scope
    | [] => []
    | scope :: rest => match scope.loop with
      | some l => { scope with loop := some (f l) } :: rest
      | none => scope :: go rest
  { s with scopes := go s.scopes }

end Store

namespace Eval

/-- Scopes nested too deeply. -/
def tooDeep {α : Type} : Eval α := throw (.invalidOperation "recursion limit exceeded")

/-- Does something in a scope of its own. -/
def inScope {α : Type} (scope : Scope) (action : Eval α) : Eval α := do
  let s ← get
  if s.outer + s.scopes.length + 1 > Store.maxDepth then tooDeep
  else
    set { s with scopes := scope :: s.scopes }
    let a ← action
    modify fun s => { s with scopes := s.scopes.drop 1 }
    return a

/-- Writes a text. -/
def write (text : String) : Eval Unit :=
  modify fun s => { s with written := text :: s.written }

/-- A namespace as the mapping that it is at this moment; every other value as it is. -/
def settled (v : Value) : Eval Value :=
  match v with
  | .namespaceRef id => do
    let entries := (← get).namespaces.getD id []
    return Value.mapOf (entries.map fun (name, w) => (.text name, w))
  | v => return v

/-- Writes a value. -/
def writeValue (v : Value) : Eval Unit := do
  let v ← match v with
    | .macroRef id => pure (Value.named ((← get).macros.getD id default).entries)
    | v => settled v
  match v.written with
  | .ok text => write text
  | .error f => throw f

/-- Does something and takes what it wrote. -/
def captured {α : Type} (action : Eval α) : Eval (α × String) := do
  let before := (← get).written
  modify fun s => { s with written := [] }
  let a ← action
  let text := String.join (← get).written.reverse
  modify fun s => { s with written := before }
  return (a, text)

/-- Refuses undefined values where a truth value is needed. -/
def truth (v : Value) : Eval Bool := do
  if v.isUndefined then throw .undefinedValue else return (← settled v).isTrue

/-- A name, bound or undefined. -/
def nameValue (name : String) : Eval Value := do return ((← get).find? name).getD .undefined

/-- An attribute of a value, which has to be defined. -/
def attrOf (v : Value) (name : String) : Eval Value := do
  let s ← get
  match v with
  | .undefined => throw .undefinedValue
  | .namespaceRef id => return (lookupIn (s.namespaces.getD id []) name).getD .undefined
  | .macroRef id =>
    return (lookupIn (s.macros.getD id default).entries name).getD .undefined
  | v => return (v.attr? name).getD .undefined

/-- An item of a value, which has to be defined. -/
def itemOf (v key : Value) : Eval Value :=
  match v, key with
  | .undefined, _ => throw .undefinedValue
  | .namespaceRef _, .str name _ => attrOf v name
  | v, key => return (v.item? key).getD .undefined

/-- Makes a namespace. -/
def newNamespace (entries : List (String × Value)) : Eval Value := do
  let s ← get
  set { s with namespaces := s.namespaces ++ [entries] }
  return .namespaceRef s.namespaces.length

/-- Binds a name in a namespace. -/
def setInNamespace (target : Value) (name : String) (v : Value) : Eval Unit :=
  match target with
  | .namespaceRef id => modify fun s =>
    { s with namespaces := s.namespaces.modify id (bindIn · name v) }
  | target => throw (.invalidOperation ("can only assign to namespaces, not " ++ target.kind.name))

/-- Makes a macro in the innermost scope. -/
def newMacro (head : MacroHead) (body : List Stmt) (free : List String) : Eval Value := do
  let (s, closure) := (← get).enclose (free.filter (· != "caller"))
  let m : Macro := ⟨head, body, closure, free.contains "caller"⟩
  set { s with macros := s.macros ++ [m] }
  return .macroRef s.macros.length

/-- Whether values differ from those last asked about in the innermost loop. -/
def loopChanged (args : List Value) : Eval Value := do
  let s ← get
  match s.currentLoop? with
  | none => return .bool true
  | some l =>
    if l.lastSeen.any fun seen => Value.sameItems seen args then return .bool false
    else
      set (s.modifyLoop fun l => { l with lastSeen := some args })
      return .bool true

end Eval

end SoftwareCensus.Template
