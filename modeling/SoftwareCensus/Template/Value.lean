import SoftwareCensus.Document.Json.Printer
import SoftwareCensus.Template.Fault
import SoftwareCensus.Text.Category

/-!
# Values of expressions

Documents, extended by what only exists while a template is evaluated: undefined values, lazy
sequences, mappings with keys of any type, and references to functions, macros, namespaces and
loops. Equality and order compare numbers across their types; values of different kinds are
ordered by kind.
-/

namespace SoftwareCensus.Template

open Numeral

/-- A value of an expression. -/
inductive Value where
  | undefined
  | none
  | bool (b : Bool)
  | int (n : Int)
  | float (x : Binary64)
  | str (s : String) (safe : Bool)
  /-- A list; a lazy one is the result of an operation that yields items one by one. -/
  | seq (items : List Value) (isLazy : Bool)
  /-- A mapping; its entries are in ascending key order. -/
  | map (entries : List (Value × Value))
  /-- A pair of a key and the items that share it. -/
  | cluster (key : Value) (items : List Value)
  /-- The state of a loop as a mapping from names to values. -/
  | loop (entries : List (String × Value))
  /-- A reference to a namespace. -/
  | namespaceRef (id : Nat)
  /-- A reference to a macro. -/
  | macroRef (id : Nat)
  /-- A built-in function. -/
  | function (name : String)
  /-- The named arguments of a call. -/
  | named (entries : List (String × Value))
  deriving Inhabited

/-- The kind of a value, in the order that values of different kinds are sorted in. -/
inductive Kind where
  | undefined
  | none
  | bool
  | number
  | string
  | sequence
  | map
  | iterable
  | plain
  deriving DecidableEq, Inhabited

/-- The place of a kind in the order of kinds. -/
def Kind.rank : Kind → Nat
  | undefined => 0
  | none => 1
  | bool => 2
  | number => 3
  | string => 4
  | sequence => 5
  | map => 6
  | iterable => 7
  | plain => 8

/-- The name of a kind. -/
def Kind.name : Kind → String
  | undefined => "undefined"
  | none => "none"
  | bool => "bool"
  | number => "number"
  | string => "string"
  | sequence => "sequence"
  | map => "map"
  | iterable => "iterator"
  | plain => "plain object"

namespace Value

/-- A plain text value. -/
def text (s : String) : Value := str s false

/-- A list of values. -/
def list (items : List Value) : Value := seq items false

/-- The kind of a value. -/
def kind : Value → Kind
  | undefined => .undefined
  | none => .none
  | bool _ => .bool
  | int _ | float _ => .number
  | str _ _ => .string
  | seq _ isLazy => if isLazy then .iterable else .sequence
  | cluster _ _ => .sequence
  | map _ | named _ | loop _ | namespaceRef _ | macroRef _ => .map
  | function _ => .plain

/-- Whether this is the undefined value. -/
def isUndefined : Value → Bool
  | undefined => true
  | _ => false

/-- Whether this is none. -/
def isNone : Value → Bool
  | none => true
  | _ => false

/-- The characters of a text value. -/
def asStr? : Value → Option String
  | str s _ => some s
  | _ => Option.none

/-- Truth: false, none, zero, what is undefined and everything empty are false. -/
def isTrue : Value → Bool
  | undefined | none => false
  | bool b => b
  | int n => n != 0
  | float x => !x.isZero
  | str s _ => s != ""
  | seq items _ => !items.isEmpty
  | map entries => !entries.isEmpty
  | named entries => !entries.isEmpty
  | cluster _ _ | loop _ | namespaceRef _ | macroRef _ | function _ => true

/-! ## Numbers -/

/-- The least integer of an expression. -/
def minInt : Int := -170141183460469231731687303715884105728

/-- The greatest integer of an expression. -/
def maxInt : Int := 170141183460469231731687303715884105727

/-- Whether an integer is in the range of expressions. -/
def inRange (n : Int) : Bool := minInt ≤ n && n ≤ maxInt

/-- The integer part of a finite double; what is out of range is cut to it. -/
def truncate (x : Binary64) : Int :=
  if x.isNaN then 0
  else
    let magnitude : Nat :=
      if !x.isFinite then twoTo 127
      else if x.exponent ≥ 0 then x.significand * twoTo x.exponent.toNat
      else x.significand / twoTo (-x.exponent).toNat
    let n : Int := if x.isNegative then -magnitude else magnitude
    max minInt (min maxInt n)

/-- Whether a double is a whole number within 64 bits. -/
def isWhole (x : Binary64) : Bool :=
  x.isFinite && (Binary64.ofInt (truncate x)).numEq x && minInt64 ≤ truncate x &&
    truncate x ≤ maxInt64

/-- The integer that a value stands for: integers, booleans and whole doubles have one. -/
def asInt? : Value → Option Int
  | bool b => some (if b then 1 else 0)
  | int n => some n
  | float x => if isWhole x then some (truncate x) else Option.none
  | _ => Option.none

/-- The double that a value stands for. A lossy conversion may round. -/
def asFloat? (lossy : Bool) : Value → Option Binary64
  | bool b => some (.ofInt (if b then 1 else 0))
  | int n =>
    let x := Binary64.ofInt n
    if lossy || truncate x == n then some x else Option.none
  | float x => some x
  | _ => Option.none

/-- Two values brought to a common type. -/
inductive Common where
  | ints (a b : Int)
  | floats (a b : Binary64)
  | texts (a b : String)

/-- Brings two values to a common type: text with text, numbers with numbers. -/
def common? (lossy : Bool) (a b : Value) : Option Common :=
  match a, b with
  | str s _, str t _ => some (.texts s t)
  | float x, float y => some (.floats x y)
  | float x, b => (b.asFloat? lossy).map (.floats x)
  | a, float y => (a.asFloat? lossy).map (.floats · y)
  | a, b => match a.asInt?, b.asInt? with
    | some m, some n => some (.ints m n)
    | _, _ => Option.none

/-! ## Order and equality -/

/-- The order of two doubles in which the negative zero comes first. -/
def compareFloats (x y : Binary64) : Ordering :=
  if x.toFloat < y.toFloat then .lt
  else if y.toFloat < x.toFloat then .gt
  else compare (!x.isNegative) (!y.isNegative)

mutual

/-- The order of two values. -/
def cmp : Value → Value → Ordering
  | seq a l, seq b m => if l == m then cmpItems a b else compare l m
  | map a, map b => cmpEntries a b
  | cluster k a, cluster l b => (cmp k l).then (cmpItems a b)
  | cluster k a, seq b l =>
    if l then .lt
    else match b with
      | [] => .gt
      | k' :: rest => (cmp k k').then (cmpPair a rest)
  | a, b =>
    if a.kind != b.kind then compare a.kind.rank b.kind.rank
    else match common? true a b with
      | some (.ints m n) => compare m n
      | some (.floats x y) => compareFloats x y
      | some (.texts s t) => compare s t
      | Option.none => .eq

/-- The order of two lists of values. -/
def cmpItems : List Value → List Value → Ordering
  | [], [] => .eq
  | [], _ => .lt
  | _, [] => .gt
  | a :: as, b :: bs => (cmp a b).then (cmpItems as bs)

/-- The order of a list of items and the second member of a pair. -/
def cmpPair (a : List Value) : List Value → Ordering
  | [] => .gt
  | [seq b _] => cmpItems a b
  | [_] => .gt
  | _ => .lt

/-- The order of two mappings. -/
def cmpEntries : List (Value × Value) → List (Value × Value) → Ordering
  | [], [] => .eq
  | [], _ => .lt
  | _, [] => .gt
  | (k, a) :: as, (l, b) :: bs => ((cmp k l).then (cmp a b)).then (cmpEntries as bs)

end

mutual

/-- Equality of two values. Lazy and other lists with the same items are equal. -/
def same : Value → Value → Bool
  | undefined, undefined => true
  | none, none => true
  | seq a _, seq b _ => sameItems a b
  | cluster k a, cluster l b => same k l && sameItems a b
  | map a, map b => sameEntries a b
  | loop _, loop _ => true
  | namespaceRef a, namespaceRef b => a == b
  | macroRef a, macroRef b => a == b
  | function a, function b => a == b
  | a, b =>
    match common? false a b with
    | some (.ints m n) => m == n
    | some (.floats x y) => x.numEq y
    | some (.texts s t) => s == t
    | Option.none => false

/-- Equality of two lists of values. -/
def sameItems : List Value → List Value → Bool
  | [], [] => true
  | a :: as, b :: bs => same a b && sameItems as bs
  | _, _ => false

/-- Equality of two mappings. -/
def sameEntries : List (Value × Value) → List (Value × Value) → Bool
  | [], [] => true
  | (k, a) :: as, (l, b) :: bs => same k l && same a b && sameEntries as bs
  | _, _ => false

end

/-! ## Mappings -/

/-- The value under a key of a mapping. -/
def getKey? (entries : List (Value × Value)) (key : Value) : Option Value :=
  match entries with
  | [] => Option.none
  | (k, v) :: rest => if cmp k key == .eq then some v else getKey? rest key

/-- Binds a key of a mapping; the order of the keys is kept. -/
def setKey (entries : List (Value × Value)) (key value : Value) : List (Value × Value) :=
  match entries with
  | [] => [(key, value)]
  | (k, v) :: rest =>
    match cmp key k with
    | .lt => (key, value) :: (k, v) :: rest
    | .eq => (k, value) :: rest
    | .gt => (k, v) :: setKey rest key value

/-- The mapping with the given entries, in any order. -/
def mapOf (entries : List (Value × Value)) : Value :=
  map (entries.foldl (fun acc (k, v) => setKey acc k v) [])

/-! ## Documents -/

mutual

/-- The value of a document. -/
def ofDocument : Document → Value
  | .null => none
  | .bool b => bool b
  | .int n => int n
  | .float x => float x
  | .str s => str s false
  | .list items => seq (ofDocuments items) false
  | .map fields => map (ofFields fields)

/-- The values of documents. -/
def ofDocuments : List Document → List Value
  | [] => []
  | d :: rest => ofDocument d :: ofDocuments rest

/-- The entries of a mapping document. -/
def ofFields : List (String × Document) → List (Value × Value)
  | [] => []
  | (k, d) :: rest => (str k false, ofDocument d) :: ofFields rest

end

/-- The text of a mapping key in a document. -/
def keyText : Value → Except Fault String
  | str s _ => .ok s
  | bool true => .ok "true"
  | bool false => .ok "false"
  | int n => .ok (toString n)
  | float x =>
    if x.isFinite then .ok (Document.jsonNumeral x)
    else .error (.notSerializable "float key must be finite (got NaN or +/-inf)")
  | _ => .error (.notSerializable "key must be a string")

mutual

/-- The document of a value. Undefined values become null, doubles that are not finite too. -/
def toDocument : Value → Except Fault Document
  | undefined | none => .ok .null
  | bool b => .ok (.bool b)
  | int n => if fits64 n then .ok (.int n) else .error (.notSerializable "number out of range")
  | float x => .ok (if x.isFinite then .float x else .null)
  | str s _ => .ok (.str s)
  | seq items _ => (toDocuments items).map .list
  | cluster key items => do
    let k ← toDocument key
    let ds ← toDocuments items
    .ok (.list [k, .list ds])
  | map entries => (toFields entries []).map .map
  | named entries => (toNamedFields entries []).map .map
  | loop entries => (toNamedFields entries []).map .map
  | namespaceRef _ | macroRef _ => .ok .empty
  | function name => .ok (.str ("<function " ++ name ++ ">"))

/-- The documents of values. -/
def toDocuments : List Value → Except Fault (List Document)
  | [] => .ok []
  | v :: rest => do
    let d ← toDocument v
    let ds ← toDocuments rest
    .ok (d :: ds)

/-- The fields of a mapping, added to those found so far. -/
def toFields : List (Value × Value) → Fields → Except Fault Fields
  | [], acc => .ok acc
  | (k, v) :: rest, acc => do
    let key ← keyText k
    let d ← toDocument v
    toFields rest (Fields.insert acc key d)

/-- The fields of named arguments, added to those found so far. -/
def toNamedFields : List (String × Value) → Fields → Except Fault Fields
  | [], acc => .ok acc
  | (k, v) :: rest, acc => do
    let d ← toDocument v
    toNamedFields rest (Fields.insert acc k d)

end

/-! ## Text forms -/

/-- The text of a double, given the text of those that are finite. -/
def floatTextWith (finite : Binary64 → String) (x : Binary64) : String :=
  if x.isNaN then "NaN"
  else if !x.isFinite then (if x.isNegative then "-inf" else "inf")
  else finite x

/-- The text of a double, always without an exponent. -/
def floatText (x : Binary64) : String := floatTextWith Binary64.formatPositional x

/-- Doubles inside a list or mapping have an exponent below `-4` and above `15`. -/
def nestedFloat : FloatLayout := ⟨-4, 15, false⟩

mutual

/-- The form of a value inside a list or mapping. -/
def inspect : Value → String
  | undefined => "undefined"
  | none => "none"
  | bool b => if b then "true" else "false"
  | int n => toString n
  | float x => floatTextWith (·.format nestedFloat) x
  | str s _ => Text.quoted s
  | seq items _ => "[" ++ inspectItems true items ++ "]"
  | cluster key items => "[" ++ inspect key ++ ", [" ++ inspectItems true items ++ "]]"
  | map entries => "\x7b" ++ inspectEntries true entries ++ "\x7d"
  | named entries => "\x7b" ++ inspectNamed true entries ++ "\x7d"
  | loop _ => "<loop>"
  | namespaceRef _ => "\x7b\x7d"
  | macroRef _ => "<macro>"
  | function name => "<function " ++ name ++ ">"

/-- The forms of the items of a list. -/
def inspectItems (first : Bool) : List Value → String
  | [] => ""
  | v :: rest => (if first then "" else ", ") ++ inspect v ++ inspectItems false rest

/-- The forms of the entries of a mapping. -/
def inspectEntries (first : Bool) : List (Value × Value) → String
  | [] => ""
  | (k, v) :: rest =>
    (if first then "" else ", ") ++ inspect k ++ ": " ++ inspect v ++ inspectEntries false rest

/-- The forms of named arguments. -/
def inspectNamed (first : Bool) : List (String × Value) → String
  | [] => ""
  | (k, v) :: rest =>
    (if first then "" else ", ") ++ Text.quoted k ++ ": " ++ inspect v ++ inspectNamed false rest

end

/-- The text that filters and methods see when they are given a value in place of a text. -/
def toText : Value → String
  | undefined => ""
  | none => "None"
  | bool b => if b then "True" else "False"
  | float x => floatText x
  | str s _ => s
  | v => v.inspect

/-- The text that a value is written as: text as it is, everything else as its document shows. -/
def written (v : Value) : Except Fault String :=
  match v with
  | undefined => .error .undefinedValue
  | str s _ => .ok s
  | v => v.toDocument.map Document.display

/-- The text that a value has when it is joined to another one; it has to be defined. -/
def joined (v : Value) : Except Fault String :=
  if v.isUndefined then .error .undefinedValue else .ok v.toText

/-! ## Items -/

/-- The items that a value yields: characters of a text, items of a list, keys of a mapping.
Nothing and undefined yield no items; `Option.none` means that the value cannot be iterated. -/
def items? : Value → Option (List Value)
  | undefined | none => some []
  | str s _ => some (s.toList.map fun c => text (String.singleton c))
  | seq items _ => some items
  | cluster key items => some [key, list items]
  | map entries => some (entries.map (·.1))
  | named entries => some (entries.map fun (k, _) => text k)
  | loop entries => some (entries.map fun (k, _) => text k)
  | _ => Option.none

/-- The items of a value that has to be iterable. -/
def items (v : Value) : Except Fault (List Value) :=
  match v.items? with
  | some vs => .ok vs
  | Option.none => .error (.invalidOperation (v.kind.name ++ " is not iterable"))

/-- The items of a value that has to be defined and iterable. -/
def definedItems (v : Value) : Except Fault (List Value) :=
  if v.isUndefined then .error .undefinedValue else v.items

/-- How many items a value has. -/
def length? : Value → Option Nat
  | str s _ => some s.length
  | seq items _ => some items.length
  | cluster _ _ => some 2
  | map entries => some entries.length
  | named entries | loop entries => some entries.length
  | _ => Option.none

/-! ## Lookup -/

/-- The attribute of a value. -/
def attr? (v : Value) (name : String) : Option Value :=
  match v with
  | map entries => getKey? entries (text name)
  | named entries | loop entries => (entries.find? (·.1 == name)).map (·.2)
  | cluster key items =>
    if name == "grouper" then some key
    else if name == "list" then some (list items)
    else Option.none
  | _ => Option.none

/-- The place that an index means in a list of some length; negative ones count from the end. -/
def place? (length : Nat) (index : Value) : Option Nat :=
  match index.asInt? with
  | some i =>
    if i < 0 then if i.natAbs ≤ length then some (length - i.natAbs) else Option.none
    else some i.toNat
  | Option.none => Option.none

/-- The item of a value under a key or at an index. -/
def item? (v key : Value) : Option Value :=
  match v with
  | map entries => getKey? entries key
  | named _ | loop _ => match key with
    | str s _ => v.attr? s
    | _ => Option.none
  | str s _ =>
    let cs := s.toList
    (place? cs.length key).bind fun i => (cs[i]?).map fun c => text (String.singleton c)
  | seq items _ => (place? items.length key).bind fun i => items[i]?
  | cluster k items => (place? 2 key).bind fun i => [k, list items][i]?
  | _ => Option.none

/-- Follows a dotted path of names and indices. -/
def path (v : Value) (dotted : String) : Except Fault Value :=
  (dotted.splitOn ".").foldlM (fun v part =>
    let next? := match readNat? part.toList with
      | some n => v.item? (int n)
      | Option.none => v.attr? part
    match next? with
    | some w => .ok w
    | Option.none => if v.isUndefined then .error .undefinedValue else .ok undefined) v

end Value

end SoftwareCensus.Template
