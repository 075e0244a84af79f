import SoftwareCensus.Document.Basic

/-!
# Uninterpreted documents

What a reader of a format finds before anything is known about the meaning: entries of mappings
in the order of the text, repeated keys included, and plain scalars whose type depends on what is
asked for. `Source.toDocument` is the reading as a document, `Source.toEager` settles all scalars
first.
-/

namespace SoftwareCensus

open Numeral

/-- A document as its text presents it. -/
inductive Source where
  | null
  | bool (b : Bool)
  | int (n : Int)
  | float (x : Binary64)
  | str (s : String)
  /-- A scalar without quotes, whose type is open. -/
  | plain (text : String)
  | list (items : List Source)
  | map (entries : List (Source × Source))
  /-- A value with an application-specific type, or one that contradicts its declared type. -/
  | foreign
  deriving Inhabited

namespace Source

/-! ## Plain scalars -/

/-- Words for null. -/
def isNullWord (s : String) : Bool :=
  s == "" || s == "~" || s == "null" || s == "Null" || s == "NULL"

/-- Words for booleans. -/
def boolWord? (s : String) : Option Bool :=
  if s == "true" || s == "True" || s == "TRUE" then some true
  else if s == "false" || s == "False" || s == "FALSE" then some false
  else none

/-- Digits that are no number: a zero followed by more digits. -/
def isZeroPadded (cs : List Char) : Bool :=
  let body := match cs with
    | '-' :: r => r
    | '+' :: r => r
    | r => r
  match body with
  | '0' :: d :: rest => (d :: rest).all Char.isDigit
  | _ => false

/-- Whether the list begins with a sign. -/
private def startsSigned : List Char → Bool
  | '+' :: _ => true
  | '-' :: _ => true
  | _ => false

/-- Reads an integer with its radix mark. -/
def intWord? (s : String) : Option Int :=
  let cs := s.toList
  let (negative, body) := match cs with
    | '-' :: r => (true, r)
    | '+' :: r => (false, r)
    | r => (false, r)
  if startsSigned body then none
  else
    let magnitude? : Option Nat := match body with
      | '0' :: 'x' :: r => ofDigitsBase? 16 r
      | '0' :: 'o' :: r => ofDigitsBase? 8 r
      | '0' :: 'b' :: r => ofDigitsBase? 2 r
      | r => if isZeroPadded cs then none else ofDigitsBase? 10 r
    magnitude?.map fun n => if negative then -(n : Int) else n

/-- Reads a double. -/
def floatWord? (s : String) : Option Binary64 :=
  let body := match s.toList with
    | '+' :: r => r
    | r => r
  let infinity : Float := 1.0 / 0.0
  if s.toList != body && startsSigned body then none
  else if [".inf", ".Inf", ".INF"].contains (String.ofList body) then some (.ofFloat infinity)
  else if ["-.inf", "-.Inf", "-.INF"].contains s then some (.ofFloat (-infinity))
  else if [".nan", ".NaN", ".NAN"].contains s then some (.ofFloat (0.0 / 0.0))
  else match readDouble? body with
    | some x => if x.isFinite then some x else none
    | none => none

/-- The widest range of integers that is recognised at all. -/
private def fits128 (n : Int) : Bool := -(twoTo 127 : Int) ≤ n && n < twoTo 128

/-- Settles the type of a plain scalar: null, boolean, integer, double or, failing all, text. -/
def settle (text : String) : Source :=
  if isNullWord text then .null
  else match boolWord? text with
    | some b => .bool b
    | none =>
      match intWord? text with
      | some n =>
        if fits64 n then .int n
        else if fits128 n then .foreign
        else match floatWord? text with
          | some x => .float x
          | none => .str text
      | none =>
        if isZeroPadded text.toList then .str text
        else match floatWord? text with
          | some x => .float x
          | none => .str text

/-! ## Readings -/

mutual

/-- Settles all scalars, those of keys included. -/
def toEager : Source → Source
  | .plain s => settle s
  | .list items => .list (toEagerItems items)
  | .map entries => .map (toEagerEntries entries)
  | other => other

/-- Settles the scalars of a list. -/
def toEagerItems : List Source → List Source
  | [] => []
  | s :: rest => toEager s :: toEagerItems rest

/-- Settles the scalars of a mapping. -/
def toEagerEntries : List (Source × Source) → List (Source × Source)
  | [] => []
  | (k, v) :: rest => (toEager k, toEager v) :: toEagerEntries rest

end

/-- The key that a source is in a document: text, or the letters of a plain scalar. -/
def asKey? : Source → Option String
  | .str s => some s
  | .plain s => some s
  | _ => none

/-- The document of a scalar; `none` if it is no scalar or has no document. -/
private def scalarDocument? : Source → Option Document
  | .null => some .null
  | .bool b => some (.bool b)
  | .int n => some (.int n)
  | .float x => some (if x.isFinite then .float x else .null)
  | .str s => some (.str s)
  | _ => none

mutual

/-- The document of a source; of entries with one key the last wins. `none` if a key is no scalar
or a value is foreign. -/
def toDocument? : Source → Option Document
  | .plain s => scalarDocument? (settle s)
  | .list items => (toDocuments? items).map .list
  | .map entries => (toFields? entries []).map .map
  | other => scalarDocument? other

/-- The documents of a list of sources. -/
def toDocuments? : List Source → Option (List Document)
  | [] => some []
  | s :: rest =>
    match toDocument? s, toDocuments? rest with
    | some d, some ds => some (d :: ds)
    | _, _ => none

/-- The fields of a mapping, added to those found so far. -/
def toFields? : List (Source × Source) → Fields → Option Fields
  | [], acc => some acc
  | (k, v) :: rest, acc =>
    match k.asKey?, toDocument? v with
    | some key, some d => toFields? rest (Fields.insert acc key d)
    | _, _ => none

end

mutual

/-- The source that a document presents. -/
def ofDocument : Document → Source
  | .null => .null
  | .bool b => .bool b
  | .int n => .int n
  | .float x => .float x
  | .str s => .str s
  | .list items => .list (ofDocuments items)
  | .map fields => .map (ofFields fields)

/-- The sources of a list of documents. -/
def ofDocuments : List Document → List Source
  | [] => []
  | d :: rest => ofDocument d :: ofDocuments rest

/-- The sources of the entries of a mapping. -/
def ofFields : List (String × Document) → List (Source × Source)
  | [] => []
  | (k, d) :: rest => (.str k, ofDocument d) :: ofFields rest

end

end Source

end SoftwareCensus
