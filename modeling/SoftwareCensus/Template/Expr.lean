import SoftwareCensus.Template.Value

/-!
# Expressions and statements

The tree of an expression and of a template, and the variables that it refers to without binding
them itself.
-/

namespace SoftwareCensus.Template

/-- A unary operator. -/
inductive UnaryOp where
  | not
  | neg
  deriving DecidableEq, Inhabited

/-- A binary operator. -/
inductive BinaryOp where
  | or
  | and
  | eq
  | ne
  | lt
  | le
  | gt
  | ge
  | contained
  | add
  | sub
  | concat
  | mul
  | div
  | floorDiv
  | mod
  | pow
  deriving DecidableEq, Inhabited

mutual

/-- An expression. -/
inductive Expr where
  | const (v : Value)
  | var (name : String)
  | list (items : List Expr)
  | map (entries : List (Expr × Expr))
  | unary (op : UnaryOp) (arg : Expr)
  | binary (op : BinaryOp) (left right : Expr)
  | cond (test yes : Expr) (no : Option Expr)
  | attr (object : Expr) (name : String)
  | item (object index : Expr)
  | slice (object : Expr) (start stop step : Option Expr)
  | filter (name : String) (value : Option Expr) (args : List Arg)
  | test (name : String) (value : Expr) (args : List Arg)
  | call (callee : Expr) (args : List Arg)

/-- An argument of a call. -/
inductive Arg where
  | pos (e : Expr)
  | named (name : String) (e : Expr)
  | spread (e : Expr)
  | spreadNamed (e : Expr)

end

instance : Inhabited Expr := ⟨.var ""⟩

/-- The declaration of a macro. -/
structure MacroHead where
  name : String
  params : List String
  defaults : List Expr
  deriving Inhabited

/-- A statement of a template. -/
inductive Stmt where
  | text (s : String)
  | emit (e : Expr)
  | loop (target iter : Expr) (only : Option Expr) (recursive : Bool) (body orElse : List Stmt)
  | cond (test : Expr) (yes no : List Stmt)
  | bind (bindings : List (Expr × Expr)) (body : List Stmt)
  | assign (target value : Expr)
  | assignBlock (target : Expr) (filter : Option Expr) (body : List Stmt)
  | autoEscape (enabled : Expr) (body : List Stmt)
  | filterBlock (filter : Expr) (body : List Stmt)
  | block (name : String) (body : List Stmt)
  | extends (name : Expr)
  | includes (name : Expr) (ignoreMissing : Bool)
  | imports (source : Expr) (name : Expr)
  | importNames (source : Expr) (names : List (Expr × Option Expr))
  | defineMacro (head : MacroHead) (body : List Stmt)
  | callBlock (call : Expr) (head : MacroHead) (body : List Stmt)
  | next
  | stop
  | run (call : Expr)
  deriving Inhabited

/-! ## Free variables -/

/-- The names that are bound at a place, and the free ones found before it. -/
structure Names where
  bound : List String
  free : List String

namespace Names

/-- Notes a reference to a name. -/
def refer (s : Names) (name : String) : Names :=
  if s.bound.contains name || s.free.contains name then s
  else { s with free := s.free ++ [name] }

/-- Binds a name from here on. -/
def bindName (s : Names) (name : String) : Names := { s with bound := name :: s.bound }

/-- Ends a scope: names bound since then are free to be found again. -/
def leave (outer inner : Names) : Names := { outer with free := inner.free }

end Names

mutual

/-- Notes the references of an expression. -/
def Expr.refs (s : Names) : Expr → Names
  | .const _ => s
  | .var name => s.refer name
  | .list items => refsOfAll s items
  | .map entries => refsOfEntries s entries
  | .unary _ e => e.refs s
  | .binary _ a b => b.refs (a.refs s)
  | .cond t y n => refsOfOption (y.refs (t.refs s)) n
  | .attr e _ => e.refs s
  | .item e i => i.refs (e.refs s)
  | .slice e a b c => refsOfOption (refsOfOption (refsOfOption (e.refs s) a) b) c
  | .filter _ v args => refsOfArgs (refsOfOption s v) args
  | .test _ v args => refsOfArgs (v.refs s) args
  | .call f args => refsOfArgs (f.refs s) args

/-- Notes the references of expressions. -/
def refsOfAll (s : Names) : List Expr → Names
  | [] => s
  | e :: rest => refsOfAll (e.refs s) rest

/-- Notes the references of an expression that may be missing. -/
def refsOfOption (s : Names) : Option Expr → Names
  | none => s
  | some e => e.refs s

/-- Notes the references of the entries of a mapping. -/
def refsOfEntries (s : Names) : List (Expr × Expr) → Names
  | [] => s
  | (k, v) :: rest => refsOfEntries (v.refs (k.refs s)) rest

/-- Notes the references of arguments. -/
def refsOfArgs (s : Names) : List Arg → Names
  | [] => s
  | .pos e :: rest => refsOfArgs (e.refs s) rest
  | .named _ e :: rest => refsOfArgs (e.refs s) rest
  | .spread e :: rest => refsOfArgs (e.refs s) rest
  | .spreadNamed e :: rest => refsOfArgs (e.refs s) rest

end

mutual

/-- Binds the names of an assignment's target; the objects of attributes are referred to. -/
def Expr.bindTargets (s : Names) : Expr → Names
  | .var name => s.bindName name
  | .list items => bindTargetsOfAll s items
  | .attr e _ => e.refs s
  | _ => s

/-- Binds the names of several targets. -/
def bindTargetsOfAll (s : Names) : List Expr → Names
  | [] => s
  | e :: rest => bindTargetsOfAll (e.bindTargets s) rest

end

/-- The names known inside a macro. -/
def Names.enterMacro (s : Names) (head : MacroHead) : Names :=
  let s := refsOfAll (s.bindName head.name) head.defaults
  (head.params.foldl Names.bindName s).bindName "caller"

/-- The names known behind a macro, which may be bound to a name. -/
def Names.leaveMacro (s : Names) (head : MacroHead) (inner : Names) (isNamed : Bool) : Names :=
  let s := s.leave inner
  if isNamed then s.bindName head.name else s

mutual

/-- Notes the references of a statement. -/
def Stmt.refs (s : Names) : Stmt → Names
  | .text _ => s
  | .emit e => e.refs s
  | .loop target iter only _ body orElse =>
    let inner := refsOfOption (target.bindTargets (iter.refs (s.bindName "loop"))) only
    let s := s.leave (refsOfBody inner body)
    s.leave (refsOfBody s orElse)
  | .cond test yes no =>
    let s := test.refs s
    let s := s.leave (refsOfBody s yes)
    s.leave (refsOfBody s no)
  | .bind bindings body =>
    let inner := bindings.foldl (fun s (target, e) => e.refs (target.bindTargets s)) s
    s.leave (refsOfBody inner body)
  | .assign target e => e.refs (target.bindTargets s)
  | .assignBlock target filter body =>
    let s := target.bindTargets s
    let s := s.leave (refsOfBody s body)
    refsOfOption s filter
  | .autoEscape enabled body =>
    let s := enabled.refs s
    s.leave (refsOfBody s body)
  | .filterBlock filter body =>
    let s := s.leave (refsOfBody s body)
    filter.refs s
  | .block _ body => s.leave (refsOfBody (s.bindName "super") body)
  | .extends e => e.refs s
  | .includes e _ => e.refs s
  | .imports source name => name.bindTargets (source.refs s)
  | .importNames source names =>
    let s := source.refs s
    names.foldl (fun s (name, target) => (target.getD name).bindTargets s) s
  | .defineMacro head body => s.leaveMacro head (refsOfBody (s.enterMacro head) body) true
  | .callBlock call head body =>
    s.leaveMacro head (refsOfBody ((call.refs s).enterMacro head) body) false
  | .next | .stop => s
  | .run call => call.refs s

/-- Notes the references of statements one after another. -/
def refsOfBody (s : Names) : List Stmt → Names
  | [] => s
  | stmt :: rest => refsOfBody (stmt.refs s) rest

end

/-- The variables that an expression refers to. -/
def Expr.freeNames (e : Expr) : List String := (e.refs ⟨[], []⟩).free

/-- The variables that a template refers to without binding them. -/
def freeNamesOf (body : List Stmt) : List String := (refsOfBody ⟨["self"], []⟩ body).free

end SoftwareCensus.Template
