import SoftwareCensus.Template.Filter.Text
import SoftwareCensus.Template.Operator

/-!
# Filters of numbers, lists and mappings

Rounding and conversion of numbers; ordering, grouping, cutting and joining of lists; the pairs of
mappings. Letters of either case are one when texts are ordered, unless told otherwise.
-/

namespace SoftwareCensus.Template.Filter

open Numeral Text Args

/-! ## Numbers -/

/-- The distance from zero. -/
def absolute : Value → Except Fault Value
  | .int n => .ok (.int n.natAbs)
  | .float x => .ok (.float (.ofFloat x.toFloat.abs))
  | _ => .error (.invalidOperation "cannot get absolute value")

/-- Rounds a double to a number of decimal places, ties away from zero. -/
def roundTo (x : Binary64) (places : Int) : Binary64 :=
  let scale : Float :=
    if places ≥ 0 then Float.pow 10.0 (Float.ofInt places)
    else 1.0 / Float.pow 10.0 (Float.ofInt (-places))
  .ofFloat ((scale * x.toFloat).round / scale)

/-- Rounds a number; integers are round. -/
def rounded (v : Value) (places : Int) : Except Fault Value :=
  match v with
  | .int n => .ok (.int n)
  | .float x => .ok (.float (roundTo x places))
  | v => .error (.invalidOperation ("cannot round value (" ++ v.kind.name ++ ")"))

/-- The integer of a value. -/
def toInteger : Value → Except Fault Value
  | .undefined | .none => .ok (.int 0)
  | .bool b => .ok (.int (if b then 1 else 0))
  | .int n => .ok (.int n)
  | .float x => .ok (.int (Value.truncate x))
  | .str s _ =>
    match readInt? s.toList with
    | some n =>
      if Value.inRange n then .ok (.int n)
      else .ok (.int (Value.truncate (Binary64.ofInt n)))
    | none =>
      match readDouble? s.toList with
      | some x => .ok (.int (Value.truncate x))
      | none => .error (.invalidOperation "invalid float literal")
  | v => .error (.invalidOperation ("cannot convert " ++ v.kind.name ++ " to integer"))

/-- The double of a value. -/
def toDouble : Value → Except Fault Value
  | .undefined | .none => .ok (.float (.ofInt 0))
  | .str s _ =>
    match readDouble? s.toList with
    | some x => .ok (.float x)
    | none => .error (.invalidOperation "invalid float literal")
  | v =>
    match v.asFloat? true with
    | some x => .ok (.float x)
    | none => .error (.invalidOperation ("cannot convert " ++ v.kind.name ++ " to float"))

/-- The sum of numbers. -/
def sum (items : List Value) : Except Fault Value :=
  items.foldlM (fun acc v =>
    match v with
    | .undefined => .error .undefinedValue
    | .int _ | .float _ => Value.add acc v
    | v => .error (.invalidOperation ("can only sum numbers, got " ++ v.kind.name))) (.int 0)

/-! ## Order -/

/-- The order of two values, in which the case of letters matters or not. -/
def compareFolded (caseSensitive : Bool) (a b : Value) : Ordering :=
  match caseSensitive, a, b with
  | false, .str s _, .str t _ => compare (asciiLower s) (asciiLower t)
  | _, a, b => a.cmp b

/-- Sorts; what compares equal keeps its order. -/
def sortWith {α : Type} (order : α → α → Ordering) (items : List α) : List α :=
  items.mergeSort fun a b => order a b != .gt

/-- The items of a value of which a list is to be made. -/
private def itemsForList (v : Value) : Except Fault (List Value) :=
  match v with
  | .undefined => .error (.invalidOperation "cannot convert value to list")
  | v => match v.items? with
    | some items => .ok items
    | none => .error (.invalidOperation "cannot convert value to list")

/-- The first of the least, or the last of the greatest items. -/
def extreme (greatest : Bool) : List Value → Value
  | [] => .undefined
  | v :: rest => rest.foldl (fun best w =>
    if greatest then (if (w.cmp best) == .lt then best else w)
    else (if (w.cmp best) == .lt then w else best)) v

/-- The items in order, by an attribute or by themselves. -/
def sorted (items : List Value) (attrPath : Option String) (caseSensitive reverse : Bool) :
    List Value :=
  let order (a b : Value) : Ordering := match attrPath with
    | none => compareFolded caseSensitive a b
    | some path => match a.path path, b.path path with
      | .ok x, .ok y => compareFolded caseSensitive x y
      | _, _ => .eq
  let out := sortWith order items
  if reverse then out.reverse else out

/-- The items without those that an earlier one is equal to. -/
def distinct (items : List Value) (attrPath : Option String) (caseSensitive : Bool) :
    Except Fault (List Value) := do
  let keyOf (v : Value) : Except Fault Value := do
    let k ← match attrPath with
      | none => .ok v
      | some path => v.path path
    match k with
    | .str s _ => .ok (.text (if caseSensitive then s else lower s))
    | k => .ok k
  let (out, _) ← items.foldlM (fun (out, seen) v => do
    let k ← keyOf v
    if seen.any fun s => Value.cmp s k == .eq then .ok (out, seen)
    else .ok (v :: out, k :: seen)) (([] : List Value), ([] : List Value))
  .ok out.reverse

/-- What a path leads to, or a value in its place. -/
private def pathOr (v : Value) (path : String) (default : Value) : Value :=
  match v.path path with
  | .ok .undefined => default
  | .ok w => w
  | .error _ => default

/-- The items in groups that share what a path leads to. -/
def grouped (items : List Value) (path : String) (default : Value) (caseSensitive : Bool) :
    List Value :=
  let keyOf (v : Value) : Value := pathOr v path default
  let inOrder := sortWith (fun a b => compareFolded caseSensitive (keyOf a) (keyOf b)) items
  let groups := inOrder.foldl (fun (groups : List (Value × List Value)) v =>
    match groups with
    | [] => [(keyOf v, [v])]
    | (k, members) :: rest =>
      if compareFolded caseSensitive k (keyOf v) == .eq then (keyOf v, v :: members) :: rest
      else (keyOf v, [v]) :: (k, members) :: rest) []
  groups.reverse.map fun (k, members) => .cluster k members.reverse

/-! ## Parts -/

/-- Rows of a fixed length; the last one may be shorter or filled up. The first argument bounds
the number of rows. -/
def rows : Nat → Nat → Option Value → List Value → List Value
  | 0, _, _, _ => []
  | _, _, _, [] => []
  | bound + 1, count, filler, items =>
    let row := items.take count
    let row := match filler with
      | some f => row ++ List.replicate (count - row.length) f
      | none => row
    .list row :: rows bound count filler (items.drop count)

/-- A fixed number of columns, the first ones longer by one if need be. -/
def columns (count : Nat) (filler : Option Value) (items : List Value) : List Value :=
  let short := items.length / count
  let long := items.length % count
  (List.range count).map fun i =>
    let start := i * short + min i long
    let column := (items.drop start).take (if i < long then short + 1 else short)
    match filler with
    | some f => .list (if i < long then column else column ++ [f])
    | none => .list column

/-- A value backwards. -/
def reversed : Value → Except Fault Value
  | .undefined => .ok .undefined
  | .none => .ok .none
  | .str s _ => .ok (.text (String.ofList s.toList.reverse))
  | v => match v.items? with
    | some items => .ok (.seq items.reverse true)
    | none => .error (.invalidOperation ("cannot reverse values of type " ++ v.kind.name))

/-- The first item. -/
def first : Value → Except Fault Value
  | .undefined | .none => .error (.invalidOperation "cannot get first item from value")
  | v => match v.items? with
    | some items => .ok (items.head?.getD .undefined)
    | none => .error (.invalidOperation "cannot get first item from value")

/-- The last item. -/
def last : Value → Except Fault Value
  | .str s _ => .ok ((s.toList.getLast?.map fun c => .text (String.singleton c)).getD .undefined)
  | .seq items _ => .ok (items.getLast?.getD .undefined)
  | .cluster _ items => .ok (.list items)
  | _ => .error (.invalidOperation "cannot get last item from value")

/-- The pairs of a mapping. -/
def pairs : Value → Except Fault (List (Value × Value))
  | .map entries => .ok entries
  | .named entries => .ok (entries.map fun (k, v) => (.text k, v))
  | _ => .error (.invalidOperation "cannot convert value into pair list")

/-- Joins mappings into one, lists into one list, and other things one after another. -/
def chained (vs : List Value) : Value :=
  if vs.all fun v => v.kind == .map then
    Value.mapOf (vs.flatMap fun v => (pairs v).toOption.getD [])
  else
    .seq (vs.flatMap fun v => (v.items?).getD []) !(vs.all fun v => v.kind == .sequence)

/-- Puts items at the same places together. The first argument bounds the length. -/
def zipped : Nat → List (List Value) → List Value
  | 0, _ => []
  | bound + 1, lists =>
    if lists.any List.isEmpty then []
    else .list (lists.filterMap List.head?) :: zipped bound (lists.map List.tail)

/-- A value for reading, over several lines. -/
def prettyText (margin : String) : Nat → Value → String
  | 0, v => v.inspect
  | bound + 1, v =>
    let inner := margin ++ "    "
    match v with
    | .undefined => "undefined"
    | .seq items _ =>
      if items.isEmpty then "[]"
      else "[\n" ++ String.join (items.map fun w =>
        inner ++ prettyText inner bound w ++ ",\n") ++ margin ++ "]"
    | .map entries =>
      if entries.isEmpty then "\x7b\x7d"
      else "\x7b\n" ++ String.join (entries.map fun (k, w) =>
        inner ++ prettyText inner bound k ++ ": " ++ prettyText inner bound w ++ ",\n") ++
        margin ++ "\x7d"
    | .named entries =>
      prettyText margin bound (.map (entries.map fun (k, w) => (.text k, w)))
    | v => v.inspect

/-! ## The filters -/

/-- The filters of numbers. -/
def numberFilter? (name : String) : Option (List Value → Except Fault Value) :=
  let ofValue (f : Value → Except Fault Value) : Option (List Value → Except Fault Value) :=
    some fun args => do f (← all args value)
  match name with
  | "abs" => ofValue absolute
  | "int" => ofValue toInteger
  | "float" => ofValue toDouble
  | "round" => some fun args => do
    let (v, places) ← all args do
      let v ← value
      return (v, ← optional asInt)
    rounded v (places.getD 0)
  | "sum" => ofValue fun v => do sum (← v.definedItems)
  | _ => none

/-- The filters of lists and mappings. -/
def sequenceFilter? (name : String) : Option (List Value → Except Fault Value) :=
  let ofValue (f : Value → Except Fault Value) : Option (List Value → Except Fault Value) :=
    some fun args => do f (← all args value)
  match name with
  | "length" | "count" => ofValue fun v =>
    match v.length? with
    | some n => .ok (.int n)
    | none =>
      .error (.invalidOperation ("cannot calculate length of value of type " ++ v.kind.name))
  | "first" => ofValue first
  | "last" => ofValue last
  | "min" => ofValue fun v => do return extreme false (← itemsForList v)
  | "max" => ofValue fun v => do return extreme true (← itemsForList v)
  | "list" => ofValue fun v => do return .list (← itemsForList v)
  | "reverse" => ofValue reversed
  | "pprint" => ofValue fun v => .ok (.text (prettyText "" 200 v))
  | "items" => ofValue fun v => do
    return .list ((← pairs v).map fun (k, w) => .list [k, w])
  | "dictsort" => some fun args => do
    let (v, named) ← all args do
      let v ← value
      return (v, ← namedArgs)
    let entries ← pairs v
    let place ← lookup named "by" asLetters
    let caseSensitive := (← lookup named "case_sensitive" asBool).getD false
    let backwards := (← lookup named "reverse" asBool).getD false
    onlyNamed named ["by", "case_sensitive", "reverse"]
    let byValue ← match place with
      | none | some "key" => .ok false
      | some "value" => .ok true
      | some other => .error (.invalidOperation
          ("invalid value '" ++ other ++ "' for 'by' parameter"))
    let out := sortWith (fun a b =>
      if byValue then compareFolded caseSensitive a.2 b.2
      else compareFolded caseSensitive a.1 b.1) entries
    let out := if backwards then out.reverse else out
    return .list (out.map fun (k, w) => .list [k, w])
  | "sort" => some fun args => do
    let (v, named) ← all args do
      let v ← value
      return (v, ← namedArgs)
    let items ← itemsForList v
    let caseSensitive := (← lookup named "case_sensitive" asBool).getD false
    let attrPath ← lookup named "attribute" asLetters
    let backwards := (← lookup named "reverse" asBool).getD false
    onlyNamed named ["case_sensitive", "attribute", "reverse"]
    return .list (sorted items attrPath caseSensitive backwards)
  | "unique" => some fun args => do
    let (v, named) ← all args do
      let v ← value
      return (v, ← namedArgs)
    let attrPath ← lookup named "attribute" asLetters
    let caseSensitive := (← lookup named "case_sensitive" asBool).getD false
    onlyNamed named ["attribute", "case_sensitive"]
    return .list (← distinct (← v.definedItems) attrPath caseSensitive)
  | "groupby" => some fun args => do
    let (v, path, named) ← all args do
      let v ← value
      match ← get with
      | [.named _] => return (v, (none : Option String), ← namedArgs)
      | _ => return (v, ← optional asLetters, ← namedArgs)
    let default := ((← lookup named "default" .ok).getD .undefined)
    let caseSensitive := (← lookup named "case_sensitive" asBool).getD false
    let path ← match path with
      | some path => .ok path
      | none => match ← lookup named "attribute" asLetters with
        | some path => .ok path
        | none => .error .missingArgument
    onlyNamed named ["default", "case_sensitive", "attribute"]
    return .list (grouped (← v.items) path default caseSensitive)
  | "batch" => some fun args => do
    let (v, count, filler) ← all args do
      let v ← value
      let count ← required asNat
      return (v, count, ← optional .ok)
    if count == 0 then throw (.invalidOperation "count cannot be 0")
    let items ← v.definedItems
    return .list (rows items.length count filler items)
  | "slice" => some fun args => do
    let (v, count, filler) ← all args do
      let v ← value
      let count ← required asNat
      return (v, count, ← optional .ok)
    if count == 0 then throw (.invalidOperation "count cannot be 0")
    return .list (columns count filler (← v.definedItems))
  | "chain" => some fun args => do
    let (v, others) ← all args do
      let v ← value
      return (v, ← rest)
    return chained (v :: others)
  | "zip" => some fun args => do
    let (v, others) ← all args do
      let v ← value
      return (v, ← rest)
    let lists ← (v :: others).mapM fun w =>
      match w.items? with
      | some items => .ok items
      | none => .error (.invalidOperation
          ("zip filter argument must be iterable, got " ++ w.kind.name))
    let longest := lists.foldl (fun n items => max n items.length) 0
    return .seq (zipped longest lists) true
  | _ => none

/-- The filters that look into values or stand in for missing ones. -/
def valueFilter? (name : String) : Option (List Value → Except Fault Value) :=
  match name with
  | "default" | "d" => some fun args => all args do
    let v ← value
    let other ← next?
    let lax := (← optional asBool).getD false
    if v.isUndefined || (lax && !v.isTrue) then return other.getD (.text "")
    else return v
  | "attr" => some fun args => do
    let (v, key) ← all args do
      let v ← value
      return (v, ← value)
    if v.isUndefined then throw .undefinedValue
    return (v.item? key).getD .undefined
  | _ => none

end SoftwareCensus.Template.Filter
