import SoftwareCensus.Template.Token
import SoftwareCensus.Template.Expr

/-!
# Reading expressions and templates

A recursive-descent reader over the tokens. From loosest to tightest, operators bind in the order
of `Level`; conditionals are looser than all of them, attribute access, calls, filters and tests
tighter.

Two counters guard the recursion. `fuel` is large enough for every text, as each call that does not
take a token goes down by one level; nesting is the limit that a text can run into.
-/

namespace SoftwareCensus.Template

/-- What the reader knows: the tokens left, how deep it is, and whether a loop is around. -/
structure ReadState where
  tokens : List Token
  depth : Nat
  inLoop : Bool

/-- A step of the reader. -/
abbrev Read := StateT ReadState (Except Fault)

namespace Read

/-- How deep expressions and statements may nest. -/
def maxDepth : Nat := 150

/-- Gives up on the text. -/
def malformed {α : Type} (why : String) : Read α := throw (.malformed why)

/-- The next token, which stays. -/
def peek : Read (Option Token) := do
  match (← get).tokens with
  | [] => return none
  | .fault f :: _ => throw f
  | t :: _ => return some t

/-- Takes the next token. -/
def take : Read (Option Token) := do
  let t ← peek
  modify fun s => { s with tokens := s.tokens.drop 1 }
  return t

/-- Takes the next token, which has to exist. -/
def takeSome : Read Token := do
  match ← take with
  | some t => return t
  | none => malformed "unexpected end of input"

/-- Whether the next token is this one. -/
def nextIs (t : Token) : Read Bool := do
  return (← peek) == some t

/-- Takes the next token if it is this one; says whether it was. -/
def skip (t : Token) : Read Bool := do
  if ← nextIs t then
    modify fun s => { s with tokens := s.tokens.drop 1 }
    return true
  else return false

/-- Takes the next token, which has to be this one. -/
def expect (t : Token) : Read Unit := do
  if !(← skip t) then malformed "unexpected token"

/-- Takes a word. -/
def takeWord : Read String := do
  match ← take with
  | some (.word w) => return w
  | _ => malformed "expected identifier"

/-- Runs a part one level deeper. -/
def deeper {α : Type} (part : Read α) : Read α := do
  let s ← get
  if s.depth + 1 > maxDepth then malformed "template exceeds maximum recursion limits"
  set { s with depth := s.depth + 1 }
  let a ← part
  modify fun s' => { s' with depth := s.depth }
  return a

end Read

open Read

/-! ## Operators -/

/-- The levels of binary operators, the loosest first. -/
inductive Level where
  | or
  | and
  | not
  | compare
  | sum
  | concat
  | product
  | power
  | unary
  deriving DecidableEq

/-- The level that binds next tighter. -/
def Level.tighter : Level → Level
  | or => and
  | and => not
  | not => compare
  | compare => sum
  | sum => concat
  | concat => product
  | product => power
  | power | unary => unary

/-- The binary operator that a token is on a level. -/
def Level.operator? : Level → Token → Option BinaryOp
  | or, .word "or" => some .or
  | and, .word "and" => some .and
  | compare, .punct .eq => some .eq
  | compare, .punct .ne => some .ne
  | compare, .punct .lt => some .lt
  | compare, .punct .le => some .le
  | compare, .punct .gt => some .gt
  | compare, .punct .ge => some .ge
  | compare, .word "in" => some .contained
  | sum, .punct .plus => some .add
  | sum, .punct .minus => some .sub
  | concat, .punct .tilde => some .concat
  | product, .punct .star => some .mul
  | product, .punct .slash => some .div
  | product, .punct .slashSlash => some .floorDiv
  | product, .punct .percent => some .mod
  | power, .punct .pow => some .pow
  | _, _ => none

/-- Whether a token may begin the argument of a test without parentheses. -/
private def startsTestArgument : Token → Bool
  | .word w => !(["and", "or", "else", "is"].contains w)
  | .str _ | .int _ | .float _ => true
  | .punct p => p == .plus || p == .minus || p == .openBracket || p == .openBrace
  | _ => false

/-- Names that cannot be assigned to. -/
private def reservedNames : List String :=
  ["true", "True", "false", "False", "none", "None", "loop", "self"]

/-- The name of a target of an assignment. -/
private def assignName : Read Expr := do
  let w ← takeWord
  if reservedNames.contains w then malformed ("cannot assign to reserved variable name " ++ w)
  return .var w

/-- Adds the attributes behind a name. -/
private def assignPath : Nat → Expr → Read Expr
  | 0, e => return e
  | fuel + 1, e => do
    if ← skip (.punct .dot) then assignPath fuel (.attr e (← takeWord)) else return e

mutual

/-- Reads an expression with its conditionals. -/
private def readExpr (fuel : Nat) : Read Expr :=
  match fuel with
  | 0 => malformed "template exceeds maximum recursion limits"
  | fuel + 1 => deeper do
    let e ← readLevel fuel .or
    readConds fuel e

/-- Reads the conditionals behind an expression. -/
private def readConds (fuel : Nat) (e : Expr) : Read Expr :=
  match fuel with
  | 0 => malformed "template exceeds maximum recursion limits"
  | fuel + 1 => do
    if ← skip (.word "if") then
      let test ← readLevel fuel .or
      let no ← if ← skip (.word "else") then
          let n ← readLevel fuel .or
          some <$> readConds fuel n
        else pure none
      readConds fuel (.cond test e no)
    else return e

/-- Reads an expression of a level. -/
private def readLevel (fuel : Nat) (level : Level) : Read Expr :=
  match fuel with
  | 0 => malformed "template exceeds maximum recursion limits"
  | fuel + 1 => do
    match level with
    | .not =>
      if ← skip (.word "not") then
        let e ← readLevel fuel .not
        return .unary .not e
      else readLevel fuel .compare
    | .unary =>
      let e ← readSigned fuel
      let e ← readPostfix fuel e
      readFilters fuel e
    | level =>
      let left ← readLevel fuel level.tighter
      readRest fuel level left

/-- Reads the operators of a level and their right sides. -/
private def readRest (fuel : Nat) (level : Level) (left : Expr) : Read Expr :=
  match fuel with
  | 0 => malformed "template exceeds maximum recursion limits"
  | fuel + 1 => do
    match ← peek with
    | none => return left
    | some t =>
      match level.operator? t with
      | some op =>
        let _ ← take
        let right ← readLevel fuel level.tighter
        readRest fuel level (.binary op left right)
      | none =>
        if level == .compare && t == .word "not" then
          let _ ← take
          expect (.word "in")
          let right ← readLevel fuel level.tighter
          readRest fuel level (.unary .not (.binary .contained left right))
        else return left

/-- Reads a primary expression with the signs before it. -/
private def readSigned (fuel : Nat) : Read Expr :=
  match fuel with
  | 0 => malformed "template exceeds maximum recursion limits"
  | fuel + 1 => do
    if ← skip (.punct .minus) then
      let e ← readSigned fuel
      return .unary .neg e
    else deeper (readPrimary fuel)

/-- Reads attributes, subscripts and calls behind an expression. -/
private def readPostfix (fuel : Nat) (e : Expr) : Read Expr :=
  match fuel with
  | 0 => malformed "template exceeds maximum recursion limits"
  | fuel + 1 => do
    match ← peek with
    | some (.punct .dot) =>
      let _ ← take
      readPostfix fuel (.attr e (← takeWord))
    | some (.punct .openBracket) =>
      let _ ← take
      let start ← if ← nextIs (.punct .colon) then pure none else some <$> readExpr fuel
      if ← skip (.punct .colon) then
        let stops := (← nextIs (.punct .closeBracket)) || (← nextIs (.punct .colon))
        let stop ← if stops then pure none else some <$> readExpr fuel
        let step ← if ← skip (.punct .colon) then
            if ← nextIs (.punct .closeBracket) then pure none else some <$> readExpr fuel
          else pure none
        expect (.punct .closeBracket)
        readPostfix fuel (.slice e start stop step)
      else
        expect (.punct .closeBracket)
        match start with
        | some i => readPostfix fuel (.item e i)
        | none => malformed "empty subscript"
    | some (.punct .openParen) =>
      let args ← readArgs fuel
      readPostfix fuel (.call e args)
    | _ => return e

/-- Reads filters and tests behind an expression. -/
private def readFilters (fuel : Nat) (e : Expr) : Read Expr :=
  match fuel with
  | 0 => malformed "template exceeds maximum recursion limits"
  | fuel + 1 => do
    match ← peek with
    | some (.punct .pipe) =>
      let _ ← take
      let name ← takeWord
      let args ← if ← nextIs (.punct .openParen) then readArgs fuel else pure []
      readFilters fuel (.filter name (some e) args)
    | some (.word "is") =>
      let _ ← take
      let negated ← skip (.word "not")
      let name ← takeWord
      let args ← if ← nextIs (.punct .openParen) then readArgs fuel
        else match ← peek with
          | some t =>
            if startsTestArgument t then
              let arg ← readSigned fuel
              let arg ← readPostfix fuel arg
              pure [Arg.pos arg]
            else pure []
          | none => pure []
      let e := Expr.test name e args
      readFilters fuel (if negated then .unary .not e else e)
    | _ => return e

/-- Reads the arguments of a call with their parentheses. -/
private def readArgs (fuel : Nat) : Read (List Arg) :=
  match fuel with
  | 0 => malformed "template exceeds maximum recursion limits"
  | fuel + 1 => do
    expect (.punct .openParen)
    readArgList fuel [] false

/-- Reads the arguments up to the closing parenthesis; those read so far come in reverse. -/
private def readArgList (fuel : Nat) (acc : List Arg) (anyNamed : Bool) : Read (List Arg) :=
  match fuel with
  | 0 => malformed "template exceeds maximum recursion limits"
  | fuel + 1 => do
    if ← skip (.punct .closeParen) then return acc.reverse
    if !acc.isEmpty then expect (.punct .comma)
    if !acc.isEmpty && (← skip (.punct .closeParen)) then return acc.reverse
    if ← skip (.punct .pow) then
      let e ← readExpr fuel
      readArgList fuel (.spreadNamed e :: acc) true
    else if ← skip (.punct .star) then
      let e ← readExpr fuel
      readArgList fuel (.spread e :: acc) anyNamed
    else
      let e ← readExpr fuel
      match e with
      | .var name =>
        if ← skip (.punct .assign) then
          let value ← readLevel fuel .or
          readArgList fuel (.named name value :: acc) true
        else if anyNamed then malformed "non-keyword arg after keyword arg"
        else readArgList fuel (.pos e :: acc) anyNamed
      | e =>
        if anyNamed then malformed "non-keyword arg after keyword arg"
        else readArgList fuel (.pos e :: acc) anyNamed

/-- Reads a literal, a name or a bracketed expression. -/
private def readPrimary (fuel : Nat) : Read Expr :=
  match fuel with
  | 0 => malformed "template exceeds maximum recursion limits"
  | fuel + 1 => do
    match ← takeSome with
    | .word "true" | .word "True" => return .const (.bool true)
    | .word "false" | .word "False" => return .const (.bool false)
    | .word "none" | .word "None" => return .const .none
    | .word name => return .var name
    | .str s => return .const (.text s)
    | .int n => return .const (.int n)
    | .float x => return .const (.float x)
    | .punct .openParen =>
      if ← skip (.punct .closeParen) then return .list []
      let e ← readExpr fuel
      if ← skip (.punct .comma) then
        return .list (← readItems fuel .closeParen [e] true)
      else
        expect (.punct .closeParen)
        return e
    | .punct .openBracket => return .list (← readItems fuel .closeBracket [] true)
    | .punct .openBrace => return .map (← readEntries fuel [])
    | _ => malformed "unexpected token"

/-- Reads items up to a closing bracket; those read so far come in reverse. -/
private def readItems (fuel : Nat) (close : Punct) (acc : List Expr) (separated : Bool) :
    Read (List Expr) :=
  match fuel with
  | 0 => malformed "template exceeds maximum recursion limits"
  | fuel + 1 => do
    if ← skip (.punct close) then return acc.reverse
    if !separated then
      expect (.punct .comma)
      readItems fuel close acc true
    else
      let e ← readExpr fuel
      readItems fuel close (e :: acc) false

/-- Reads the entries of a mapping up to its closing brace. -/
private def readEntries (fuel : Nat) (acc : List (Expr × Expr)) : Read (List (Expr × Expr)) :=
  match fuel with
  | 0 => malformed "template exceeds maximum recursion limits"
  | fuel + 1 => do
    if ← skip (.punct .closeBrace) then return acc.reverse
    if !acc.isEmpty then expect (.punct .comma)
    if !acc.isEmpty && (← skip (.punct .closeBrace)) then return acc.reverse
    let k ← readExpr fuel
    expect (.punct .colon)
    let v ← readExpr fuel
    readEntries fuel ((k, v) :: acc)

end

/-- Enough fuel for the tokens of a text. -/
private def fuelFor (tokens : List Token) : Nat := 40 * (tokens.length + 10)

/-- Reads an expression that stands alone. -/
def Expr.read (source : String) : Except Fault Expr := do
  let tokens := Token.ofExpression source
  let fuel := fuelFor tokens
  let part : Read Expr := do
    let e ← readExpr fuel
    match ← peek with
    | none => return e
    | some _ => malformed "unexpected input after expression"
  let (e, _) ← part.run ⟨tokens, 0, false⟩
  return e

/-! ## Statements -/

/-- Reads an expression without a conditional, as conditions and iterations need it. -/
private def readPlain (fuel : Nat) : Read Expr := readLevel fuel .or

/-- Reads the target of an assignment: a name or several of them. -/
private def readTarget : Nat → List Expr → Bool → Read Expr
  | 0, _, _ => malformed "template exceeds maximum recursion limits"
  | fuel + 1, acc, isTuple => do
    let finished (acc : List Expr) (isTuple : Bool) : Expr :=
      match acc, isTuple with
      | [e], false => e
      | acc, _ => .list acc.reverse
    if !acc.isEmpty then expect (.punct .comma)
    match ← peek with
    | some (.punct .closeParen) | some .varEnd | some .blockEnd | some (.word "in") =>
      return finished acc isTuple
    | _ =>
      let e ← if ← skip (.punct .openParen) then do
          let inner ← readTarget fuel [] false
          expect (.punct .closeParen)
          pure inner
        else assignName
      let acc := e :: acc
      if ← nextIs (.punct .comma) then readTarget fuel acc true
      else return finished acc isTuple

/-- Reads a chain of filters that has no value of its own. -/
private def readFilterChain : Nat → Option Expr → Read Expr
  | 0, _ => malformed "template exceeds maximum recursion limits"
  | fuel + 1, e => do
    let stops ← nextIs .blockEnd
    if stops then
      match e with
      | some e => return e
      | none => malformed "expected a filter"
    else
      if e.isSome then expect (.punct .pipe)
      let name ← takeWord
      let args ← if ← nextIs (.punct .openParen) then readArgs fuel else pure []
      readFilterChain fuel (some (.filter name e args))

/-- Reads the parameters of a macro up to the closing parenthesis. -/
private def readParams : Nat → List String → List Expr → Read (List String × List Expr)
  | 0, _, _ => malformed "template exceeds maximum recursion limits"
  | fuel + 1, params, defaults => do
    if ← skip (.punct .closeParen) then return (params.reverse, defaults.reverse)
    if !params.isEmpty then expect (.punct .comma)
    if !params.isEmpty && (← skip (.punct .closeParen)) then
      return (params.reverse, defaults.reverse)
    match ← assignName with
    | .var name =>
      if ← skip (.punct .assign) then
        let d ← readExpr fuel
        readParams fuel (name :: params) (d :: defaults)
      else if !defaults.isEmpty then malformed "expected `=`"
      else readParams fuel (name :: params) defaults
    | _ => malformed "expected identifier"

/-- Reads the names of an import. -/
private def readImportNames : Nat → List (Expr × Option Expr) → Read (List (Expr × Option Expr))
  | 0, _ => malformed "template exceeds maximum recursion limits"
  | fuel + 1, acc => do
    if ← nextIs .blockEnd then return acc.reverse
    if !acc.isEmpty then expect (.punct .comma)
    if ← nextIs .blockEnd then return acc.reverse
    let name ← assignName
    let target ← if ← skip (.word "as") then some <$> assignName else pure none
    readImportNames fuel ((name, target) :: acc)

/-- Reads the bindings of a `with` tag. -/
private def readBindings : Nat → List (Expr × Expr) → Read (List (Expr × Expr))
  | 0, _ => malformed "template exceeds maximum recursion limits"
  | fuel + 1, acc => do
    if ← nextIs .blockEnd then return acc.reverse
    if !acc.isEmpty then expect (.punct .comma)
    let target ← if ← skip (.punct .openParen) then do
        let t ← readTarget fuel [] false
        expect (.punct .closeParen)
        pure t
      else assignName
    expect (.punct .assign)
    let e ← readExpr fuel
    readBindings fuel ((target, e) :: acc)

mutual

/-- Reads statements up to a tag that begins with one of the given words, which is not taken. -/
private def readBody (fuel : Nat) (stops : List String) (acc : List Stmt) : Read (List Stmt) :=
  match fuel with
  | 0 => malformed "template exceeds maximum recursion limits"
  | fuel + 1 => do
    match ← take with
    | none => return acc.reverse
    | some (.data s) => readBody fuel stops (.text s :: acc)
    | some .varStart =>
      let e ← readExpr fuel
      expect .varEnd
      readBody fuel stops (.emit e :: acc)
    | some .blockStart =>
      match ← peek with
      | none => malformed "unexpected end of input, expected keyword"
      | some (.word w) =>
        if stops.contains w then return acc.reverse
        else
          let s ← deeper (readStmt fuel)
          expect .blockEnd
          readBody fuel stops (s :: acc)
      | some _ => malformed "unexpected token, expected statement"
    | some _ => malformed "unexpected token"

/-- Reads the body of a tag up to its end tag, whose word is taken. -/
private def readUntil (fuel : Nat) (stop : String) : Read (List Stmt) :=
  match fuel with
  | 0 => malformed "template exceeds maximum recursion limits"
  | fuel + 1 => do
    expect .blockEnd
    let body ← readBody fuel [stop] []
    expect (.word stop)
    return body

/-- Reads the rest of a condition: its test, its branches and its end tag. -/
private def readIf (fuel : Nat) : Read Stmt :=
  match fuel with
  | 0 => malformed "template exceeds maximum recursion limits"
  | fuel + 1 => do
    let test ← readExpr fuel
    expect .blockEnd
    let yes ← readBody fuel ["endif", "else", "elif"] []
    match ← take with
    | some (.word "else") => return .cond test yes (← readUntil fuel "endif")
    | some (.word "elif") => return .cond test yes [← readIf fuel]
    | some (.word "endif") => return .cond test yes []
    | _ => malformed "unexpected end of input"

/-- Reads a statement after the opening mark of its tag. -/
private def readStmt (fuel : Nat) : Read Stmt :=
  match fuel with
  | 0 => malformed "template exceeds maximum recursion limits"
  | fuel + 1 => do
    let word ← takeWord
    match word with
    | "for" =>
      let target ← readTarget fuel [] false
      expect (.word "in")
      let iter ← readPlain fuel
      let only ← if ← skip (.word "if") then some <$> readExpr fuel else pure none
      let recursive ← skip (.word "recursive")
      expect .blockEnd
      let outer := (← get).inLoop
      modify fun s => { s with inLoop := true }
      let body ← readBody fuel ["endfor", "else"] []
      modify fun s => { s with inLoop := outer }
      match ← take with
      | some (.word "else") =>
        return .loop target iter only recursive body (← readUntil fuel "endfor")
      | some (.word "endfor") => return .loop target iter only recursive body []
      | _ => malformed "unexpected end of input"
    | "if" => readIf fuel
    | "with" =>
      let bindings ← readBindings fuel []
      return .bind bindings (← readUntil fuel "endwith")
    | "set" =>
      let inParens ← skip (.punct .openParen)
      let target ← if inParens then do
          let t ← readTarget fuel [] false
          expect (.punct .closeParen)
          pure t
        else do
          let name ← assignName
          assignPath fuel name
      let isBlock := !inParens && ((← nextIs .blockEnd) || (← nextIs (.punct .pipe)))
      if isBlock then
        let filter ← if ← skip (.punct .pipe) then some <$> readFilterChain fuel none else pure none
        return .assignBlock target filter (← readUntil fuel "endset")
      else
        expect (.punct .assign)
        return .assign target (← readExpr fuel)
    | "autoescape" =>
      let enabled ← readExpr fuel
      return .autoEscape enabled (← readUntil fuel "endautoescape")
    | "filter" =>
      let filter ← readFilterChain fuel none
      return .filterBlock filter (← readUntil fuel "endfilter")
    | "block" =>
      let name ← takeWord
      expect .blockEnd
      let body ← readBody fuel ["endblock"] []
      expect (.word "endblock")
      match ← peek with
      | some (.word w) =>
        if w == name then
          let _ ← take
          return .block name body
        else malformed "mismatching name on block"
      | _ => return .block name body
    | "extends" => return .extends (← readExpr fuel)
    | "include" =>
      let name ← readExpr fuel
      if ← skip (.word "ignore") then
        expect (.word "missing")
        return .includes name true
      else return .includes name false
    | "import" =>
      let source ← readExpr fuel
      expect (.word "as")
      return .imports source (← readExpr fuel)
    | "from" =>
      let source ← readExpr fuel
      expect (.word "import")
      return .importNames source (← readImportNames fuel [])
    | "macro" =>
      let name ← takeWord
      expect (.punct .openParen)
      let (params, defaults) ← readParams fuel [] []
      let outer := (← get).inLoop
      modify fun s => { s with inLoop := false }
      let body ← readUntil fuel "endmacro"
      modify fun s => { s with inLoop := outer }
      return .defineMacro ⟨name, params, defaults⟩ body
    | "call" =>
      let (params, defaults) ← if ← skip (.punct .openParen) then readParams fuel [] []
        else pure ([], [])
      let e ← readExpr fuel
      match e with
      | .call _ _ =>
        let body ← readUntil fuel "endcall"
        return .callBlock e ⟨"caller", params, defaults⟩ body
      | _ => malformed "expected call expression in call block"
    | "continue" =>
      if (← get).inLoop then return .next
      else malformed "'continue' must be placed inside a loop"
    | "break" =>
      if (← get).inLoop then return .stop
      else malformed "'break' must be placed inside a loop"
    | "do" =>
      let e ← readExpr fuel
      match e with
      | .call _ _ => return .run e
      | _ => malformed "expected call expression in do block"
    | w => malformed ("unknown statement " ++ w)

end

/-- Reads a template. -/
def readTemplate (source : String) : Except Fault (List Stmt) := do
  let tokens := Token.ofTemplate source
  let (body, _) ← (readBody (fuelFor tokens) [] []).run ⟨tokens, 0, false⟩
  return body

end SoftwareCensus.Template
