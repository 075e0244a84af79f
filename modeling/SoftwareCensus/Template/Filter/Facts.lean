import SoftwareCensus.Document.Json.Reader
import SoftwareCensus.Document.Shape
import SoftwareCensus.Document.Yaml.Printer
import SoftwareCensus.Document.Yaml.Reader
import SoftwareCensus.Files.PathText
import SoftwareCensus.Regex.Replacement
import SoftwareCensus.Template.Arguments
import SoftwareCensus.Template.Operator
import SoftwareCensus.Text.Pieces

/-!
# Filters and tests of facts

What task files use to take facts apart and put them together: regular expressions, path names,
document formats, mappings as lists of pairs, lists as sets.
-/

namespace SoftwareCensus.Template.Filter

open Text Args

/-- The text of a value as it shows inside a larger text; undefined values show as none. -/
def shown : Value → Except Fault String
  | .str s _ => .ok s
  | v => v.toDocument.map Document.display

/-! ## Regular expressions -/

/-- Compiles a pattern with the modes that named arguments ask for. -/
def matcherFor (pattern : String) (named : List (String × Value)) : Except Fault Regex.Matcher := do
  let ignoreCase := (← lookup named "ignorecase" asBool).getD false
  let multiLine := (← lookup named "multiline" asBool).getD false
  onlyNamed named ["ignorecase", "multiline"]
  match Regex.Matcher.compile { ignoreCase, multiLine } pattern with
  | .ok m => .ok m
  | .error f => .error (.invalidOperation
      ("invalid regular expression '" ++ pattern ++ "': " ++ f.message pattern))

/-- Takes a value, a pattern and the modes. -/
private def patternArgs : Args (Value × String × List (String × Value)) := do
  let v ← value
  let pattern ← required asText
  return (v, pattern, ← namedArgs)

/-- The filters that match regular expressions. -/
def regexFilter? (name : String) : Option (List Value → Except Fault Value) :=
  match name with
  | "regex_search" => some fun args => do
    let (v, pattern, named) ← all args patternArgs
    let m ← matcherFor pattern named
    match m.find? (← shown v) with
    | some found => return .text found.whole
    | none => return .none
  | "regex_findall" => some fun args => do
    let (v, pattern, named) ← all args patternArgs
    let m ← matcherFor pattern named
    let found := m.findAll (← shown v)
    return .list (found.map fun f => .text ((f.group? 1).getD f.whole))
  | "regex_replace" => some fun args => do
    let (v, pattern, replacement, named) ← all args do
      let v ← value
      let pattern ← required asText
      match ← get with
      | [.named _] => return (v, pattern, (none : Option String), ← namedArgs)
      | _ => return (v, pattern, ← optional asText, ← namedArgs)
    let m ← matcherFor pattern named
    let template := String.ofList (Regex.dollarForm (replacement.getD "").toList)
    return .text (m.replaceAll (← shown v) template)
  | "regex_escape" => some fun args => do
    return .text (Regex.escape (← shown (← all args value)))
  | _ => none

/-! ## Path names and formats -/

/-- Whether a text is a word for yes. -/
def isYes (s : String) : Bool :=
  ["yes", "on", "true", "y", "t", "1"].contains (asciiLower (trim s))

/-- The name of the type of a document. -/
def typeName : Document → String
  | .null => "NoneType"
  | .bool _ => "bool"
  | .float _ => "float"
  | .int _ => "int"
  | .str _ => "str"
  | .list _ => "list"
  | .map _ => "dict"

/-- The filters of path names, truth values and document formats. -/
def formatFilter? (name : String) : Option (List Value → Except Fault Value) :=
  let ofShown (f : String → Except Fault Value) : Option (List Value → Except Fault Value) :=
    some fun args => do f (← shown (← all args value))
  let ofDoc (f : Document → Value) : Option (List Value → Except Fault Value) :=
    some fun args => do return f (← (← all args value).toDocument)
  match name with
  | "basename" => ofShown fun s => .ok (.text ((Files.fileName? s).getD ""))
  | "dirname" => ofShown fun s => .ok (.text ((Files.parent? s).getD ""))
  | "bool" => some fun args => do
    match ← all args value with
    | .str s _ => return .bool (isYes s)
    | v => return .bool v.isTrue
  | "to_json" => ofDoc fun d => .text d.toJson
  | "to_nice_json" => ofDoc fun d => .text d.toPrettyJson
  | "to_yaml" => ofDoc fun d => .text (Yaml.render d)
  | "from_json" => ofShown fun s =>
    match Json.read? s with
    | some d => .ok (Value.ofDocument d)
    | none => .error (.invalidOperation "not a JSON document")
  | "from_yaml" => ofShown fun s =>
    match Yaml.read? s with
    | some d => .ok (Value.ofDocument d)
    | none => .error (.invalidOperation "not a YAML document")
  | "type_debug" => ofDoc fun d => .text (typeName d)
  | _ => none

/-! ## Mappings and lists -/

/-- The document of a mapping. -/
private def mappingOf (v : Value) (filter : String) : Except Fault Fields := do
  match ← v.toDocument with
  | .map fields => .ok fields
  | _ => .error (.invalidOperation (filter ++ " expects a mapping"))

/-- A mapping as a list of its pairs. -/
def pairsOf (fields : Fields) : Document :=
  .list (fields.map fun (k, v) => .ofFields [("key", .str k), ("value", v)])

/-- The mapping of a list of pairs. -/
def mappingOfPairs (keyName valueName : String) (pairs : List Document) : Except Fault Fields :=
  pairs.foldlM (fun out pair =>
    match pair.field? keyName with
    | some key => .ok (Fields.insert out key.display ((pair.field? valueName).getD .null))
    | none => .error (.invalidOperation ("items2dict: item has no '" ++ keyName ++ "'"))) []

/-- Combines a mapping with updates, at every depth or only at the top. -/
def combined (recursive : Bool) (base : Fields) (updates : List Document) : Except Fault Fields :=
  updates.foldlM (fun base update =>
    match update with
    | .map fields => .ok (if recursive then Document.overlay base fields else base.extend fields)
    | _ => .error (.invalidOperation "combine arguments must be mappings")) base

/-- The values of a list, each once. -/
def onceEach (items : List Value) : List Value :=
  items.foldl (fun out v => if out.any (·.same v) then out else out ++ [v]) []

/-- Takes two lists. -/
private def twoLists (args : List Value) : Except Fault (List Value × List Value) := do
  let (a, b) ← all args do
    let a ← value
    return (a, ← value)
  return (← a.items, ← b.items)

/-- The filters of mappings and lists. -/
def structureFilter? (name : String) : Option (List Value → Except Fault Value) :=
  match name with
  | "dict2items" => some fun args => do
    return Value.ofDocument (pairsOf (← mappingOf (← all args value) "dict2items"))
  | "items2dict" => some fun args => do
    let (v, keyName, valueName) ← all args do
      let v ← value
      let keyName ← optional asText
      return (v, keyName, ← optional asText)
    let pairs ← (← v.items).mapM Value.toDocument
    let fields ← mappingOfPairs (keyName.getD "key") (valueName.getD "value") pairs
    return Value.ofDocument (.map fields)
  | "combine" => some fun args => do
    let (v, update, named) ← all args do
      let v ← value
      let update ← value
      return (v, update, ← namedArgs)
    let recursive := (← lookup named "recursive" asBool).getD false
    onlyNamed named ["recursive"]
    let base ← mappingOf v "combine"
    let updates := match ← update.toDocument with
      | .list ds => ds
      | d => [d]
    return Value.ofDocument (.map (← combined recursive base updates))
  | "flatten" => some fun args => do
    let (v, levels) ← all args do
      let v ← value
      return (v, ← optional asInt)
    match ← v.toDocument with
    | .list ds => return Value.ofDocument (.list (Document.flattenItems levels ds))
    | _ => throw (.invalidOperation "flatten expects a list")
  | "union" => some fun args => do
    let (a, b) ← twoLists args
    return .list (onceEach (a ++ b))
  | "intersect" => some fun args => do
    let (a, b) ← twoLists args
    return .list ((onceEach a).filter fun v => b.any (·.same v))
  | "difference" => some fun args => do
    let (a, b) ← twoLists args
    return .list ((onceEach a).filter fun v => !b.any (·.same v))
  | "ternary" => some fun args => all args do
    let v ← value
    let yes ← value
    let no ← value
    let onNone ← next?
    match v, onNone with
    | .none, some w => return w
    | v, _ => return if v.isTrue then yes else no
  | _ => none

/-! ## Tests -/

/-- The truth of a mark that the result of a task carries. -/
def isMarked (mark : String) (v : Value) : Bool := ((v.attr? mark).getD .undefined).isTrue

/-- The tests of facts. -/
def factTest? (name : String) : Option (List Value → Except Fault Bool) :=
  match name with
  | "match" => some fun args => do
    let (v, pattern, named) ← all args patternArgs
    let m ← matcherFor ("^(?:" ++ pattern ++ ")") named
    return m.isMatch (← shown v)
  | "search" => some fun args => do
    let (v, pattern, named) ← all args patternArgs
    let m ← matcherFor pattern named
    return m.isMatch (← shown v)
  | "contains" => some fun args => do
    let (v, part) ← all args do
      let v ← value
      return (v, ← value)
    match v with
    | .str s _ => return hasPart (← shown part) s
    | v => return (← v.items).any (·.same part)
  | "failed" => some fun args => do return isMarked "failed" (← all args value)
  | "succeeded" => some fun args => do return !isMarked "failed" (← all args value)
  | "skipped" => some fun args => do return isMarked "skipped" (← all args value)
  | "changed" => some fun args => do return isMarked "changed" (← all args value)
  | _ => none

end SoftwareCensus.Template.Filter
