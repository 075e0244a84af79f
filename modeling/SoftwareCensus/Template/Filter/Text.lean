import SoftwareCensus.Template.Arguments
import SoftwareCensus.Template.Format
import SoftwareCensus.Text.Pieces

/-!
# Filters of texts

Case, trimming, splitting, replacing, indenting and escaping.
-/

namespace SoftwareCensus.Template.Filter

open Text Args

/-- Replaces what has a meaning in markup. -/
def escapeMarkup (s : String) : String :=
  String.ofList (s.toList.flatMap fun c =>
    match c with
    | '<' => "&lt;".toList
    | '>' => "&gt;".toList
    | '&' => "&amp;".toList
    | '"' => "&quot;".toList
    | '\'' => "&#x27;".toList
    | '/' => "&#x2f;".toList
    | c => [c])

/-- The escaped text of a value; text marked as safe stays as it is. -/
def escaped (v : Value) : Value :=
  match v with
  | .str s true => .str s true
  | .undefined | .none | .bool _ | .int _ | .float _ => .str v.toText true
  | v => .str (escapeMarkup v.toText) true

/-- Removes one line end from the end. -/
private def dropLineEnd (s : String) : String :=
  let s := if s.endsWith "\n" then (s.dropEnd 1).toString else s
  if s.endsWith "\r" then (s.dropEnd 1).toString else s

/-- Indents the lines of a text. -/
def indented (s : String) (width : Nat) (firstLine blankLines : Bool) : String :=
  let margin := String.ofList (List.replicate width ' ')
  let indent (line : String) : String :=
    if line == "" then (if blankLines then margin else "") else margin ++ line
  match (dropLineEnd s).splitOn "\n" with
  | [] => ""
  | first :: rest =>
    let first := if firstLine then indent first else first
    dropLineEnd (String.join ((first :: rest.map indent).map (· ++ "\n")))

/-- The pieces of a text: between the places of a part, or the words between blanks. -/
def pieces (s : String) (part : Option String) (limit : Option Int) : List Value :=
  let limit := limit.bind fun n => if n ≥ 0 then some n.toNat else none
  let found := match part, limit with
    | some part, limit => splitOnPart limit part s
    | none, none => words s
    | none, some n => firstWords (n + 1) s
  found.map Value.text

/-- The texts of items, joined. -/
def joined (items : List Value) (between : String) : String :=
  items.foldl (fun acc v => (if acc == "" then acc else acc ++ between) ++ v.toText) ""

/-- The filters of texts. -/
def textFilter? (name : String) : Option (List Value → Except Fault Value) :=
  let ofText (f : String → String) : Option (List Value → Except Fault Value) :=
    some fun args => all args do return .text (f (← required asText))
  match name with
  | "lower" => ofText lower
  | "upper" => ofText upper
  | "title" => ofText titled
  | "capitalize" => ofText capitalize
  | "safe" => some fun args => all args do return .str (← required asText) true
  | "escape" | "e" => some fun args => all args do return escaped (← value)
  | "string" => some fun args => all args do
    let v ← value
    match v with
    | .str _ _ => return v
    | v => return .text v.toText
  | "replace" => some fun args => all args do
    let s ← required asText
    let old ← required asText
    let new ← required asText
    return .text (replacePart none old new s)
  | "trim" => some fun args => all args do
    let s ← required asText
    match ← optional asText with
    | some chars => return .text (trimLeftOf chars.toList (trimRightOf chars.toList s))
    | none => return .text (trim s)
  | "split" => some fun args => all args do
    let s ← required asText
    let part ← optional asText
    let limit ← optional asInt
    return .seq (pieces s part limit) true
  | "lines" => some fun args => all args do
    return .list ((lines (← required asText)).map Value.text)
  | "join" => some fun args => all args do
    let v ← value
    let between := (← optional asText).getD ""
    if v.isUndefined || v.isNone then return .text ""
    match v.items? with
    | some items => return .text (joined items between)
    | none => throw (.invalidOperation ("cannot join value of type " ++ v.kind.name))
  | "indent" => some fun args => all args do
    let s ← required asText
    let width ← required asNat
    let firstLine := (← optional asBool).getD false
    let blankLines := (← optional asBool).getD false
    return .text (indented s width firstLine blankLines)
  | "format" => some fun args => all args do
    let s ← required asLetters
    match formatPercent s (← rest) with
    | .ok s => return .text s
    | .error f => throw f
  | _ => none

end SoftwareCensus.Template.Filter
