import SoftwareCensus.Template.Store

/-!
# Evaluation

The value of an expression and the text of a template. Every function recurses on a bound of the
depth of expressions, statements and calls; scopes nested too deeply end an evaluation long before
the bound does.
-/

namespace SoftwareCensus.Template

open Eval

/-! ## Operators -/

/-- A binary operator that needs both operands. -/
private def applyBinary (op : BinaryOp) (a b : Value) : Except Fault Value :=
  match op with
  | .eq => Value.comparison Value.same a b
  | .ne => Value.comparison (fun a b => !(a.same b)) a b
  | .lt => Value.comparison (fun a b => a.cmp b == .lt) a b
  | .le => Value.comparison (fun a b => a.cmp b != .gt) a b
  | .gt => Value.comparison (fun a b => a.cmp b == .gt) a b
  | .ge => Value.comparison (fun a b => a.cmp b != .lt) a b
  | .contained =>
    if b.isUndefined then .error .undefinedValue else (Value.contains b a).map Value.bool
  | .add => a.add b
  | .sub => a.sub b
  | .concat => do return .text ((← a.joined) ++ (← b.joined))
  | .mul => a.mul b
  | .div => a.div b
  | .floorDiv => a.floorDiv b
  | .mod => a.mod b
  | .pow => a.pow b
  | .and | .or => .ok b

/-- Puts the named arguments behind the others. -/
private def withNamed (args : List Value) (named : List (String × Value)) (any : Bool) :
    List Value :=
  if any then args ++ [.named named] else args

/-- The arguments of a macro: those given by place and those given by name. -/
private def splitNamed (args : List Value) : List Value × List (String × Value) :=
  match args.getLast? with
  | some (.named entries) => (args.dropLast, entries)
  | _ => (args, [])

/-- The values of a macro's parameters; those without an argument are undefined. -/
private def bindParams (head : MacroHead) (takesCaller : Bool) (args : List Value) :
    Except Fault (List (String × Value)) := do
  let (args, named) := splitNamed args
  if args.length > head.params.length then throw (.tooManyArguments none)
  let vars ← head.params.mapIdx (fun i name => (i, name)) |>.mapM fun (i, name) =>
    match args[i]?, lookupIn named name with
    | some _, some _ =>
      .error (.tooManyArguments (some ("duplicate argument \x60" ++ name ++ "\x60")))
    | some v, none | none, some v => .ok (name, v)
    | none, none => .ok (name, Value.undefined)
  let known := head.params ++ (if takesCaller then ["caller"] else [])
  match named.find? fun (name, _) => !known.contains name with
  | some (name, _) =>
    throw (.tooManyArguments (some ("unknown keyword argument \x60" ++ name ++ "\x60")))
  | none =>
    if takesCaller then return ("caller", (lookupIn named "caller").getD .undefined) :: vars
    else return vars

/-- What a template can see of a loop in one round. -/
private def loopEntries (depth : Nat) (items : List Value) (i : Nat) : List (String × Value) :=
  let n := items.length
  [("depth0", .int depth), ("depth", .int (depth + 1)), ("index0", .int i), ("index", .int (i + 1)),
    ("length", .int n), ("revindex", .int (n - i)), ("revindex0", .int (n - i - 1)),
    ("first", .bool (i == 0)), ("last", .bool (i + 1 == n)),
    ("previtem", if i == 0 then .undefined else items.getD (i - 1) .undefined),
    ("nextitem", items.getD (i + 1) .undefined)]

/-- The names that a macro refers to. -/
private def closureNames (head : MacroHead) (body : List Stmt) : List String :=
  let s := head.params.foldl Names.bindName ⟨[], []⟩
  (refsOfBody (refsOfAll s head.defaults) body).free

/-- Looks for other templates, of which there are none. -/
private def lookForTemplate (ignoreMissing : Bool) (names : Value) : Eval Unit := do
  let choices := match names with
    | .str _ _ => [names]
    | v => v.items?.getD [v]
  match choices with
  | [] => return
  | .str s _ :: _ => if ignoreMissing then return else throw (.templateNotFound s)
  | _ => throw (.invalidOperation "template name was not a string")

/-! ## Expressions and statements -/

mutual

/-- The value of an expression. A filter without an operand takes the piped value. -/
def eval (bound : Nat) (piped : Value) (e : Expr) : Eval Value :=
  match bound with
  | 0 => tooDeep
  | bound + 1 =>
    match e with
    | .const v => return v
    | .var name => nameValue name
    | .list items => do return .list (← items.mapM fun e => eval bound piped e)
    | .map entries => do
      return Value.mapOf (← entries.mapM fun (k, v) => do
        return (← eval bound piped k, ← eval bound piped v))
    | .unary .not e => do return .bool !(← truth (← eval bound piped e))
    | .unary .neg e => do
      match (← eval bound piped e).neg with
      | .ok v => return v
      | .error f => throw f
    | .binary .and a b => do
      let v ← eval bound piped a
      if ← truth v then eval bound piped b else return v
    | .binary .or a b => do
      let v ← eval bound piped a
      if ← truth v then return v else eval bound piped b
    | .binary op a b => do
      let v ← settled (← eval bound piped a)
      let w ← settled (← eval bound piped b)
      match applyBinary op v w with
      | .ok v => return v
      | .error f => throw f
    | .cond test yes no => do
      if ← truth (← eval bound piped test) then eval bound piped yes
      else match no with
        | some e => eval bound piped e
        | none => return .undefined
    | .attr e name => do attrOf (← eval bound piped e) name
    | .item e i => do
      let v ← eval bound piped e
      itemOf v (← eval bound piped i)
    | .slice e start stop step => do
      let v ← eval bound piped e
      let part (e? : Option Expr) : Eval Value := match e? with
        | some e => eval bound piped e
        | none => return .none
      let a ← part start
      let b ← part stop
      match v.slice a b (← part step) with
      | .ok v => return v
      | .error f => throw f
    | .filter name e? args => do
      let v ← match e? with
        | some e => eval bound piped e
        | none => pure piped
      let args ← evalArgs bound piped args
      match applyFilter name (← (v :: args).mapM settled) with
      | .ok v => return v
      | .error f => throw f
    | .test name e args => do
      let v ← eval bound piped e
      let args ← evalArgs bound piped args
      match applyTest name (← (v :: args).mapM settled) with
      | .ok b => return .bool b
      | .error f => throw f
    | .call (.var name) args => do
      let args ← evalArgs bound piped args
      if name == "super" then throw (.invalidOperation "cannot super outside of block")
      else if name == "loop" then
        match args with
        | [items] => recurLoop bound items
        | _ => throw (.invalidOperation "loop() takes one argument")
      else match (← get).find? name with
        | some f => callValue bound f args
        | none => throw (.unknownFunction name)
    | .call (.attr (.var "self") name) _ => do
      match (← get).blocks.find? (·.1 == name) with
      | some (_, body) => do
        let (_, text) ← captured (inScope {} (runBody bound body))
        return .text text
      | none => throw (.invalidOperation ("block '" ++ name ++ "' not found"))
    | .call (.attr e name) args => do
      let v ← eval bound piped e
      callMethod bound v name (← evalArgs bound piped args)
    | .call e args => do
      let f ← eval bound piped e
      callValue bound f (← evalArgs bound piped args)

/-- The values of arguments; the named ones come last, together. -/
def evalArgs (bound : Nat) (piped : Value) (args : List Arg) : Eval (List Value) :=
  match bound with
  | 0 => tooDeep
  | bound + 1 => do
    let (vs, named, any) ← args.foldlM (fun (vs, named, any) arg => do
      match arg with
      | .pos e => return (vs ++ [← eval bound piped e], named, any)
      | .named name e => return (vs, named ++ [(name, ← eval bound piped e)], true)
      | .spread e =>
        match (← eval bound piped e).items? with
        | some items => return (vs ++ items, named, any)
        | none => throw (.invalidOperation "cannot unpack arguments")
      | .spreadNamed e =>
        match ← eval bound piped e with
        | .map entries => return (vs, named ++ entries.filterMap fun (k, v) =>
            k.asStr?.map fun s => (s, v), true)
        | .named entries => return (vs, named ++ entries, true)
        | _ => throw (.invalidOperation "attempted to apply keyword arguments from non map"))
      (([] : List Value), ([] : List (String × Value)), false)
    return withNamed vs named any

/-- Calls a value. -/
def callValue (bound : Nat) (f : Value) (args : List Value) : Eval Value :=
  match bound with
  | 0 => tooDeep
  | bound + 1 =>
    let lift (r : Except Fault Value) : Eval Value := match r with
      | .ok v => return v
      | .error e => throw e
    match f with
    | .function "range" => lift (rangeOf args)
    | .function "dict" => lift (dictOf args)
    | .function "namespace" => do
      match namespaceOf args with
      | .ok entries => newNamespace entries
      | .error e => throw e
    | .function _ => do
      match ← args.mapM settled with
      | [v] => return .text (Filter.prettyText "" 200 v)
      | args => return .text (Filter.prettyText "" 200 (.list args))
    | .macroRef id => do callMacro bound ((← get).macros.getD id default) args
    | f => throw (.invalidOperation ("value of type " ++ f.kind.name ++ " is not callable"))

/-- Calls a method: an attribute that can be called, or what all values of the kind have. -/
def callMethod (bound : Nat) (v : Value) (name : String) (args : List Value) : Eval Value :=
  match bound with
  | 0 => tooDeep
  | bound + 1 => do
    match v, name with
    | .loop _, "changed" => loopChanged args
    | .loop entries, "cycle" =>
      match lookupIn entries "index0" with
      | some (.int i) =>
        if args.isEmpty then throw (.invalidOperation "loop.cycle needs arguments")
        else return args.getD (i.toNat % args.length) .undefined
      | _ => throw (.unknownMethod name)
    | v, name =>
      let found ← match v with
        | .undefined | .loop _ => pure .undefined
        | v => attrOf v name
      if !found.isUndefined then callValue bound found args
      else match Method.of? (← settled v) name with
        | some m => match m args with
          | .ok w => return w
          | .error f => throw f
        | none => throw (.unknownMethod name)

/-- Calls a macro; the value is what it writes. -/
def callMacro (bound : Nat) (m : Macro) (args : List Value) : Eval Value :=
  match bound with
  | 0 => tooDeep
  | bound + 1 => do
    match bindParams m.head m.takesCaller args with
    | .error f => throw f
    | .ok vars =>
      let before ← get
      let outer := before.outer + before.scopes.length + 4
      if outer + 2 > Store.maxDepth then tooDeep
      set { before with outer, scopes := [{ vars }, { base := some m.closure }] }
      let withDefaults := m.head.params.reverse.zip (m.head.defaults.reverse.map some)
      withDefaults.forM fun (name, default?) => do
        if (← nameValue name).isUndefined then
          match default? with
          | some e => do
            let v ← eval bound .undefined e
            modify (·.bind name v)
          | none => pure ()
      let (_, text) ← captured (runBody bound m.body)
      modify fun s => { s with outer := before.outer, scopes := before.scopes }
      return .text text

/-- Calls the innermost loop again, for other items. -/
def recurLoop (bound : Nat) (items : Value) : Eval Value :=
  match bound with
  | 0 => tooDeep
  | bound + 1 => do
    match (← get).currentLoop? with
    | some ⟨_, depth, _, some (target, body)⟩ =>
      match (← settled items).definedItems with
      | .error f => throw f
      | .ok items =>
        let (_, text) ← captured (runLoop bound target items (depth + 1) true body)
        return .text text
    | _ => throw (.invalidOperation "cannot recurse outside of recursive loop")

/-- Binds the names of a target to the parts of a value. -/
def assign (bound : Nat) (target : Expr) (v : Value) : Eval Unit :=
  match bound with
  | 0 => tooDeep
  | bound + 1 =>
    match target with
    | .var name => modify (·.bind name v)
    | .attr e name => do setInNamespace (← eval bound .undefined e) name v
    | .list targets => do
      let parts? := match v with
        | .str _ _ | .undefined | .none => none
        | v => v.items?
      match parts? with
      | none => throw (.cannotUnpack "value is not iterable")
      | some parts =>
        if parts.length != targets.length then
          throw (.cannotUnpack "sequence of wrong length")
        else (targets.zip parts).forM fun (t, w) => assign bound t w
    | _ => throw (.invalidOperation "cannot assign")

/-- Runs a loop over items. -/
def runLoop (bound : Nat) (target : Expr) (items : List Value) (depth : Nat)
    (isRecursive : Bool) (body : List Stmt) : Eval Unit :=
  match bound with
  | 0 => tooDeep
  | bound + 1 =>
    let state : LoopState :=
      ⟨[], depth, none, if isRecursive then some (target, body) else none⟩
    inScope { loop := some state } do
      let _ ← (items.mapIdx fun i v => (i, v)).foldlM (fun (running : Bool) (i, v) => do
        if !running then return false
        modify (·.modifyTop fun top => { top with
          loop := top.loop.map fun l => { l with entries := loopEntries depth items i } })
        assign bound target v
        return (← runBody bound body) != .stopLoop) true

/-- Runs statements one after another, until one ends a loop or its round. -/
def runBody (bound : Nat) (body : List Stmt) : Eval Flow :=
  match bound with
  | 0 => tooDeep
  | bound + 1 =>
    body.foldlM (fun flow stmt => do
      match flow with
      | .next => runStmt bound stmt
      | flow => return flow) .next

/-- Runs a statement. -/
def runStmt (bound : Nat) (stmt : Stmt) : Eval Flow :=
  match bound with
  | 0 => tooDeep
  | bound + 1 => do
    match stmt with
    | .text s => write s; return .next
    | .emit e => do
      writeValue (← eval bound .undefined e)
      return .next
    | .loop target iter only isRecursive body orElse => do
      let lift (r : Except Fault (List Value)) : Eval (List Value) := match r with
        | .ok vs => return vs
        | .error f => throw f
      let items ← lift (← settled (← eval bound .undefined iter)).definedItems
      let items ← match only with
        | none => pure items
        | some test => inScope {} (items.filterM fun v => do
          assign bound target v
          truth (← eval bound .undefined test))
      let depth := match (← get).currentLoop? with
        | some ⟨_, depth, _, some _⟩ => depth + 1
        | _ => 0
      runLoop bound target items depth isRecursive body
      if items.isEmpty then runBody bound orElse else return .next
    | .cond test yes no =>
      if ← truth (← eval bound .undefined test) then runBody bound yes else runBody bound no
    | .bind bindings body => inScope {} do
      bindings.forM fun (target, e) => do assign bound target (← eval bound .undefined e)
      runBody bound body
    | .assign target e => do
      assign bound target (← eval bound .undefined e)
      return .next
    | .assignBlock target filter body => do
      let (flow, text) ← captured (inScope {} (runBody bound body))
      let v ← match filter with
        | some f => eval bound (.text text) f
        | none => pure (Value.text text)
      assign bound target v
      return flow
    | .autoEscape enabled body => do
      match ← eval bound .undefined enabled with
      | .str s _ =>
        if s == "html" || s == "none" then runBody bound body
        else throw (.invalidOperation "invalid value to autoescape tag")
      | _ => runBody bound body
    | .filterBlock filter body => do
      let (flow, text) ← captured (inScope {} (runBody bound body))
      writeValue (← eval bound (.text text) filter)
      return flow
    | .block _ body => inScope {} (runBody bound body)
    | .extends e => do
      match ← eval bound .undefined e with
      | .str s _ => throw (.templateNotFound s)
      | _ => throw (.invalidOperation "template name was not a string")
    | .includes e ignoreMissing => do
      lookForTemplate ignoreMissing (← eval bound .undefined e)
      return .next
    | .imports e _ => do
      lookForTemplate false (← eval bound .undefined e)
      return .next
    | .importNames e _ => do
      lookForTemplate false (← eval bound .undefined e)
      return .next
    | .defineMacro head body => do
      let m ← newMacro head body (closureNames head body)
      modify (·.bind head.name m)
      return .next
    | .callBlock call head body => do
      let m ← newMacro head body (closureNames head body)
      let call := match call with
        | .call f args => Expr.call f (args ++ [.named "caller" (.const m)])
        | e => e
      writeValue (← eval bound .undefined call)
      return .next
    | .next => return .nextItem
    | .stop => return .stopLoop
    | .run call => do
      let _ ← eval bound .undefined call
      return .next

end

/-! ## Whole expressions and templates -/

mutual

/-- The blocks of a statement. -/
private def blocksOf : Stmt → List (String × List Stmt)
  | .block name body => (name, body) :: blocksOfBody body
  | .loop _ _ _ _ body orElse => blocksOfBody body ++ blocksOfBody orElse
  | .cond _ yes no => blocksOfBody yes ++ blocksOfBody no
  | .bind _ body | .assignBlock _ _ body | .autoEscape _ body | .filterBlock _ body =>
    blocksOfBody body
  | _ => []

/-- The blocks of statements. -/
private def blocksOfBody : List Stmt → List (String × List Stmt)
  | [] => []
  | stmt :: rest => blocksOf stmt ++ blocksOfBody rest

end

/-- How deep expressions, statements and calls may be nested, more than any reader and any nesting
of scopes lets through. -/
def maxEvalDepth : Nat := 100000

/-- The value of an expression in a scope. -/
def Expr.value (e : Expr) (vars : List (String × Value)) : Except Fault Value :=
  (eval maxEvalDepth .undefined e).run' { scopes := [{ vars }] }

/-- The text of a template in a scope. -/
def textOf (body : List Stmt) (vars : List (String × Value)) : Except Fault String := do
  let (_, s) ← (runBody maxEvalDepth body).run { scopes := [{ vars }], blocks := blocksOfBody body }
  return String.join s.written.reverse

end SoftwareCensus.Template
