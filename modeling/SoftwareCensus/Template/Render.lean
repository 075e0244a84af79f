import SoftwareCensus.Template.Eval
import SoftwareCensus.Template.Reader

/-!
# Templates over documents

Texts with expressions in double braces are rendered against a scope of variables. A text that is
exactly one expression keeps the type of the result, every other one renders to text. Double
angle brackets mean the same as double braces.

A variable that the scope does not have is an error before anything is evaluated, unless the text
of the template shows that it deals with undefined values.
-/

namespace SoftwareCensus.Template

/-- The variables that a template can use. -/
abbrev Lookup := String → Option Document

/-! ## Errors -/

/-- Why a template or a condition has no value. -/
inductive Error where
  | malformed (template message : String)
  | undefined (name : String)
  /-- An unknown filter, test, function or method. -/
  | unsupported (message : String)
  | type (message : String)
  | condition (text : String) (cause : Error)
  deriving DecidableEq, Inhabited, Repr

namespace Error

/-- The text of an error. -/
def message : Error → String
  | malformed template why =>
    "template error while templating string '" ++ template ++ "': " ++ why
  | undefined name => "'" ++ name ++ "' is undefined"
  | unsupported why => why
  | type why => why
  | condition text cause => "conditional '" ++ text ++ "' failed: " ++ cause.message

/-- The name of the kind of an error. -/
def kind : Error → String
  | malformed _ _ => "Syntax"
  | undefined _ => "Undefined"
  | unsupported _ => "Unsupported"
  | type _ => "Type"
  | condition _ _ => "Condition"

/-- Whether an undefined variable is behind an error. -/
def isUndefined : Error → Bool
  | undefined _ => true
  | condition _ cause => cause.isUndefined
  | _ => false

/-- The error that a fault is, given the template and the first variable that is missing. -/
def ofFault (template : String) (missing : Option String) (f : Fault) : Error :=
  match f with
  | .malformed _ => malformed template f.message
  | .undefinedValue => undefined (missing.getD template)
  | .unknownFilter _ | .unknownTest _ | .unknownFunction _ | .unknownMethod _ =>
    unsupported f.message
  | _ => type f.message

end Error

/-! ## The shape of a template -/

/-- Whether two characters stand next to each other in a text. -/
def hasPair (a b : Char) : List Char → Bool
  | x :: y :: rest => (x == a && y == b) || hasPair a b (y :: rest)
  | _ => false

/-- Replaces every pair of two equal characters by another pair. -/
def replacePair (a b : Char) : List Char → List Char
  | x :: y :: rest =>
    if x == a && y == a then b :: b :: replacePair a b rest else x :: replacePair a b (y :: rest)
  | cs => cs

/-- Writes double angle brackets as double braces. -/
def normalize (cs : List Char) : List Char :=
  if hasPair '<' '<' cs then replacePair '>' '}' (replacePair '<' '{' cs) else cs

/-- Whether a text has an expression or a statement in it. -/
def hasMarkup (cs : List Char) : Bool := hasPair '{' '{' cs || hasPair '{' '%' cs

/-- Whether a text is a template. -/
def isTemplate (s : String) : Bool := hasMarkup s.toList || hasPair '<' '<' s.toList

/-- Removes one dash from the beginning. -/
private def dropDash : List Char → List Char
  | '-' :: rest => rest
  | cs => cs

/-- The expression of a text that is exactly one expression in braces. -/
def singleExpression? (cs : List Char) : Option (List Char) :=
  match cs with
  | '{' :: '{' :: rest =>
    match rest.reverse with
    | '}' :: '}' :: reversed =>
      let inner := reversed.reverse
      if hasMarkup inner || hasPair '}' '}' inner then none
      else some (Text.trimList (dropDash (dropDash inner).reverse).reverse)
    | _ => none
  | _ => none

/-- An expression with blanks between it and the braces around it. -/
theorem singleExpression?_spaced {cs : List Char} (hmarkup : hasMarkup (' ' :: (cs ++ [' '])) = false)
    (hend : hasPair '}' '}' (' ' :: (cs ++ [' '])) = false) :
    singleExpression? ('{' :: '{' :: ' ' :: (cs ++ [' ', '}', '}'])) =
      some (Text.trimList (' ' :: (cs ++ [' ']))) := by
  have hreverse : (' ' :: (cs ++ [' ', '}', '}'])).reverse =
      '}' :: '}' :: ' ' :: (cs.reverse ++ [' ']) := by simp
  have hinner : (' ' :: (cs.reverse ++ [' '])).reverse = ' ' :: (cs ++ [' ']) := by simp
  simp only [singleExpression?, hreverse, hinner, hmarkup, hend]
  -- Neither end is a dash, so none is removed.
  simp [dropDash]

/-- Whether the text of a template mentions what deals with undefined values. -/
def guardsUndefined (cs : List Char) : Bool :=
  let s := String.ofList cs
  Text.hasPart "default" s || Text.hasPart "defined" s ||
    ((s.splitOn "|").drop 1).any fun part => (Text.trimLeft part).startsWith "d("

/-! ## Rendering -/

/-- The bindings of the names that a template refers to, and the first name without one. That one
is an error unless the template guards against undefined values. -/
def bindings (lookup : Lookup) (names : List String) (text : List Char) :
    Except Error (List (String × Value) × Option String) :=
  let vars := names.filterMap fun name => (lookup name).map fun d => (name, Value.ofDocument d)
  let missing := names.filter fun name => (lookup name).isNone && !globalNames.contains name
  match missing.mergeSort fun a b => !(b < a) with
  | [] => .ok (vars, none)
  | first :: _ => if guardsUndefined text then .ok (vars, some first) else .error (.undefined first)

/-- The value of an expression that a template consists of. -/
def evalExpression (lookup : Lookup) (expression template : List Char) : Except Error Document := do
  let text := String.ofList expression
  match Expr.read text with
  | .error f => throw (.ofFault (String.ofList template) none f)
  | .ok e =>
    let (vars, missing) ← bindings lookup e.freeNames expression
    match e.value vars with
    | .error f => throw (.ofFault text missing f)
    | .ok .undefined => throw (.undefined (missing.getD text))
    | .ok v => match v.toDocument with
      | .ok d => return d
      | .error f => throw (.ofFault text none f)

/-- An expression whose variables cannot be looked up is not evaluated. -/
theorem evalExpression_of_bindings_eq_error (lookup : Lookup) {expression : List Char} {e : Expr}
    {error : Error} (template : List Char) (hread : Expr.read (String.ofList expression) = .ok e)
    (hbindings : bindings lookup e.freeNames expression = .error error) :
    evalExpression lookup expression template = .error error := by
  unfold evalExpression
  simp only [hread, hbindings]
  rfl

/-- Renders a normalized text. -/
private def renderNormalized (lookup : Lookup) (cs : List Char) : Except Error Document := do
  if !hasMarkup cs then return .str (String.ofList cs)
  match singleExpression? cs with
  | some inner => evalExpression lookup inner cs
  | none =>
    let text := String.ofList cs
    match readTemplate text with
    | .error f => throw (.ofFault text none f)
    | .ok body =>
      let (vars, missing) ← bindings lookup (freeNamesOf body) cs
      match textOf body vars with
      | .ok s => return .str s
      | .error f => throw (.ofFault text missing f)

/-- Renders a text. -/
def renderText (lookup : Lookup) (s : String) : Except Error Document :=
  renderNormalized lookup (normalize s.toList)

/-- A text that is no template stays as it is. -/
theorem renderText_of_not_isTemplate (lookup : Lookup) {s : String} (h : isTemplate s = false) :
    renderText lookup s = .ok (.str s) := by
  obtain ⟨hmarkup, hangles⟩ := Bool.or_eq_false_iff.mp h
  have hnormal : normalize s.toList = s.toList := by simp [normalize, hangles]
  rw [renderText, hnormal, renderNormalized, hmarkup]
  simp [pure, Except.pure]

/-- A text that is exactly one expression is evaluated as that expression. -/
theorem renderText_of_singleExpression (lookup : Lookup) {s : String} {inner : List Char}
    (hmarkup : hasMarkup (normalize s.toList) = true)
    (hsingle : singleExpression? (normalize s.toList) = some inner) :
    renderText lookup s = evalExpression lookup inner (normalize s.toList) := by
  simp [renderText, renderNormalized, hmarkup, hsingle]

/-- A template whose variables cannot be looked up is not rendered. -/
theorem renderText_of_bindings_eq_error (lookup : Lookup) {s : String} {body : List Stmt}
    {error : Error} (hmarkup : hasMarkup (normalize s.toList) = true)
    (hsingle : singleExpression? (normalize s.toList) = none)
    (hread : readTemplate (String.ofList (normalize s.toList)) = .ok body)
    (hbindings : bindings lookup (freeNamesOf body) (normalize s.toList) = .error error) :
    renderText lookup s = .error error := by
  unfold renderText renderNormalized
  simp only [hmarkup, hsingle, hread, hbindings]
  rfl

/-- Evaluates a bare expression; a text with markup is rendered. -/
def evaluate (lookup : Lookup) (s : String) : Except Error Document :=
  let cs := normalize s.toList
  if hasMarkup cs then renderNormalized lookup cs
  else evalExpression lookup (Text.trimList cs) cs

/-- A text with markup has the value that it renders to. -/
theorem evaluate_of_hasMarkup (lookup : Lookup) {s : String}
    (h : hasMarkup (normalize s.toList) = true) : evaluate lookup s = renderText lookup s := by
  simp [evaluate, renderText, h]

/-- A text without markup is an expression, but for the blanks around it. -/
theorem evaluate_of_not_hasMarkup (lookup : Lookup) {s : String}
    (h : hasMarkup (normalize s.toList) = false) :
    evaluate lookup s =
      evalExpression lookup (Text.trimList (normalize s.toList)) (normalize s.toList) := by
  simp [evaluate, h]

mutual

/-- Renders every text in a document, keys included. -/
def render (lookup : Lookup) : Document → Except Error Document
  | .str s => renderText lookup s
  | .list items => do return .list (← renderItems lookup items)
  | .map fields => do return .map (← renderFields lookup [] fields)
  | d => .ok d

/-- Renders the items of a list. -/
def renderItems (lookup : Lookup) : List Document → Except Error (List Document)
  | [] => .ok []
  | d :: rest => do
    let d ← render lookup d
    return d :: (← renderItems lookup rest)

/-- Renders the entries of a mapping, a key before its value, and adds them to those rendered so
far. -/
def renderFields (lookup : Lookup) (acc : Fields) : List (String × Document) → Except Error Fields
  | [] => .ok acc
  | (k, d) :: rest => do
    let key ← renderText lookup k
    let d ← render lookup d
    renderFields lookup (acc.insert key.display d) rest

end

/-! ## Conditions -/

/-- The truth value that a word stands for. -/
def boolWord? (s : String) : Option Bool :=
  let word := Text.asciiLower (Text.trim s)
  if word == "true" || word == "yes" || word == "on" then some true
  else if word == "false" || word == "no" || word == "off" || word == "" then some false
  else none

/-- Whether the value of a condition is true; words for truth values are taken as such. -/
def holdsAsWord (d : Document) : Bool :=
  match d with
  | .str s => (boolWord? s).getD d.isTruthy
  | d => d.isTruthy

mutual

/-- Whether a condition holds: a truth value, a word for one, or an expression, with or without
braces. A list holds when all its entries do; nothing is a condition that holds. -/
def condition (lookup : Lookup) : Document → Except Error Bool
  | .null => .ok true
  | .bool b => .ok b
  | .int n => .ok (n != 0)
  | .float x => .ok !x.isZero
  | .list items => conditions lookup items
  | .map fields => .error (.condition (Document.map fields).display
      (.type "a conditional must be a string, boolean or list"))
  | .str s =>
    match boolWord? s with
    | some b => .ok b
    | none => match evaluate lookup s with
      | .ok d => .ok (holdsAsWord d)
      | .error e => .error (.condition s e)

/-- Whether all conditions hold; those behind the first that does not are not looked at. -/
def conditions (lookup : Lookup) : List Document → Except Error Bool
  | [] => .ok true
  | d :: rest => do
    if ← condition lookup d then conditions lookup rest else return false

end

end SoftwareCensus.Template
