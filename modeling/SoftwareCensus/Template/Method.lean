import SoftwareCensus.Template.Filter

/-!
# Methods and functions

The methods of texts, mappings and lists, and the functions that every template can call.
-/

namespace SoftwareCensus.Template

open Args Text

namespace Method

/-- Whether a text begins or ends with a part, or with one of several. -/
private def touches (holds : String → Bool) (what : Value) : Except Fault Bool :=
  let wrong (v : Value) : Fault :=
    .invalidOperation ("argument must be string or a tuple of strings, not " ++ v.kind.name)
  match what with
  | .str part _ => .ok (holds part)
  | .seq items _ =>
    let rec check : List Value → Except Fault Bool
      | [] => .ok false
      | .str part _ :: rest => if holds part then .ok true else check rest
      | v :: _ => .error (wrong v)
    check items
  | v => .error (wrong v)

/-- How often a part that is not empty occurs. -/
private def occurrences (part text : String) : Nat :=
  if part == "" then 0 else (splitOnPart none part text).length - 1

/-- The methods of texts. -/
def ofText? (s : String) (name : String) : Option (List Value → Except Fault Value) :=
  let plain (f : String → String) : Option (List Value → Except Fault Value) :=
    some fun args => all args do return .text (f s)
  let every (p : Char → Bool) : Option (List Value → Except Fault Value) :=
    some fun args => all args do return .bool (s.toList.all p)
  let trimming (blank : String → String) (chars : List Char → String → String) :
      Option (List Value → Except Fault Value) :=
    some fun args => all args do
      match ← optional asText with
      | some cs => return .text (chars cs.toList s)
      | none => return .text (blank s)
  match name with
  | "upper" => plain upper
  | "lower" => plain lower
  | "title" => plain titled
  | "capitalize" => plain capitalize
  | "islower" => every lowercase.contains
  | "isupper" => every uppercase.contains
  | "isspace" => every isBlank
  | "isdigit" | "isnumeric" => every numerics.contains
  | "isalnum" => every fun c => letters.contains c || numerics.contains c
  | "isalpha" => every letters.contains
  | "isascii" => every fun c => c.toNat < 0x80
  | "strip" => trimming trim fun cs s => trimLeftOf cs (trimRightOf cs s)
  | "lstrip" => trimming trimLeft trimLeftOf
  | "rstrip" => trimming trimRight trimRightOf
  | "replace" => some fun args => all args do
    let old ← required asText
    let new ← required asText
    let limit := (← optional asInt).bind fun n => if n < 0 then none else some n.toNat
    return .text (replacePart limit old new s)
  | "split" => some fun args => all args do
    let part ← optional asText
    return .list (Filter.pieces s part (← optional asInt))
  | "splitlines" => some fun args => all args do
    let keepEnds := (← optional asBool).getD false
    return .list ((if keepEnds then linesWithEnds s else lines s).map Value.text)
  | "count" => some fun args => all args do
    return .int (occurrences (← required asLetters) s)
  | "find" => some fun args => all args do
    return .int (((findPart? (← required asLetters) s).map Int.ofNat).getD (-1))
  | "rfind" => some fun args => all args do
    return .int (((findLastPart? (← required asLetters) s).map Int.ofNat).getD (-1))
  | "startswith" => some fun args => do
    return .bool (← touches (fun part => s.startsWith part) (← all args value))
  | "endswith" => some fun args => do
    return .bool (← touches (fun part => s.endsWith part) (← all args value))
  | "join" => some fun args => do
    let items ← (← all args value).items
    return .text (s.intercalate (items.map Value.toText))
  | "format" => some fun args => do return .text (← formatBraces s args)
  | _ => none

/-- The methods of mappings. -/
def ofMap? (entries : List (Value × Value)) (name : String) :
    Option (List Value → Except Fault Value) :=
  match name with
  | "keys" => some fun args => all args do return .list (entries.map (·.1))
  | "values" => some fun args => all args do return .list (entries.map (·.2))
  | "items" => some fun args => all args do
    return .list (entries.map fun (k, v) => .list [k, v])
  | "get" => some fun args => all args do
    let key ← value
    let default ← next?
    return (Value.getKey? entries key).getD (default.getD .none)
  | _ => none

/-- The methods of lists. -/
def ofList? (items : List Value) (name : String) : Option (List Value → Except Fault Value) :=
  match name with
  | "count" => some fun args => all args do
    let v ← value
    return .int (items.filter (·.same v)).length
  | _ => none

/-- The method of a value. -/
def of? (v : Value) (name : String) : Option (List Value → Except Fault Value) :=
  match v with
  | .str s _ => ofText? s name
  | .map entries => ofMap? entries name
  | .named entries | .loop entries => ofMap? (entries.map fun (k, w) => (.text k, w)) name
  | .seq items false => ofList? items name
  | .cluster key items => ofList? [key, .list items] name
  | _ => none

end Method

/-! ## Functions -/

/-- The names that are bound everywhere. -/
def globalNames : List String := ["range", "dict", "namespace", "debug"]

/-- How many numbers a range may have. -/
def maxRange : Nat := 100000

/-- Numbers from one to before another, in steps. -/
def range (start stop step : Int) : Except Fault Value :=
  if step == 0 then .error (.invalidOperation "cannot create range with step of 0")
  else
    let count : Nat :=
      if step > 0 then ((stop - start + step - 1) / step).toNat
      else ((start - stop - step - 1) / (-step)).toNat
    if count > maxRange then .error (.invalidOperation "range has too many elements")
    else .ok (.list ((List.range count).map fun (i : Nat) => .int (start + i * step)))

/-- The numbers that the arguments of a range ask for. -/
def rangeOf (args : List Value) : Except Fault Value := do
  let (a, b, c) ← all args do
    let a ← required asInt
    let b ← optional asInt
    return (a, b, ← optional asInt)
  match b with
  | some stop => range a stop (c.getD 1)
  | none => range 0 a (c.getD 1)

/-- The mapping that the arguments of `dict` ask for. -/
def dictOf (args : List Value) : Except Fault Value := do
  let (base, named) ← all args do
    match ← get with
    | [.named _] => return ((none : Option Value), ← namedArgs)
    | _ => return (← next?, ← namedArgs)
  let entries ← match base with
    | none | some .undefined | some .none => .ok []
    | some (.map entries) => .ok entries
    | some _ => .error (.invalidOperation "expected a mapping")
  return Value.mapOf (entries ++ named.map fun (k, v) => (.text k, v))

/-- The first bindings of a namespace. -/
def namespaceOf (args : List Value) : Except Fault (List (String × Value)) := do
  match ← all args next? with
  | none | some .undefined | some .none => .ok []
  | some (.named entries) => .ok entries
  | some (.map entries) => .ok (entries.filterMap fun (k, v) => k.asStr?.map fun s => (s, v))
  | some v => .error (.invalidOperation
      ("expected object or keyword arguments, got " ++ v.kind.name))

end SoftwareCensus.Template
