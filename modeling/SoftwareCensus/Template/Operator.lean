import SoftwareCensus.Template.Value

/-!
# Operators

Arithmetic over integers of 128 bits and doubles, repetition and joining of texts and lists,
comparisons, containment, slices. Integer division and remainder are Euclidean, so that a remainder
is never negative.
-/

namespace SoftwareCensus.Template.Value

open Numeral

/-- An operator that is not defined for its operands. -/
private def unsupported {α : Type} (op : String) (a b : Value) : Except Fault α :=
  .error (.invalidOperation ("tried to use " ++ op ++ " operator on unsupported types " ++
    a.kind.name ++ " and " ++ b.kind.name))

/-- An integer result, if it is in range. -/
private def inInt (op : String) (n : Int) : Except Fault Value :=
  if inRange n then .ok (int n)
  else .error (.invalidOperation ("unable to calculate " ++ op ++ ": out of range"))

/-- An arithmetic operator, given what it does to integers and to doubles. -/
private def arithmetic (op : String) (a b : Value) (ints : Int → Int → Except Fault Value)
    (floats : Float → Float → Float) : Except Fault Value :=
  match common? true a b with
  | some (.ints m n) => ints m n
  | some (.floats x y) => .ok (float (.ofFloat (floats x.toFloat y.toFloat)))
  | _ => unsupported op a b

/-- The items of a list, lazy or not. -/
private def listItems? : Value → Option (List Value)
  | seq items _ => some items
  | cluster key items => some [key, list items]
  | _ => Option.none

/-- Addition, and the joining of texts and of lists. -/
def add (a b : Value) : Except Fault Value :=
  match listItems? a, listItems? b with
  | some as, some bs => .ok (seq (as ++ bs) true)
  | _, _ =>
    match common? true a b with
    | some (.texts s t) => .ok (text (s ++ t))
    | _ => arithmetic "+" a b (fun m n => inInt "+" (m + n)) (· + ·)

/-- Subtraction. -/
def sub (a b : Value) : Except Fault Value :=
  arithmetic "-" a b (fun m n => inInt "-" (m - n)) (· - ·)

/-- How often something is repeated. -/
private def repetitions (v : Value) : Except Fault Nat :=
  match v.asInt? with
  | some n => if n < 0 then .error (.invalidOperation "cannot repeat a negative number of times")
    else .ok n.toNat
  | Option.none => .error (.invalidOperation "can only repeat with an integer")

/-- How long a repetition may become. -/
private def maxRepeated : Nat := 10000000

/-- The repetition of a list of things. -/
private def repeated {α : Type} (xs : List α) (n : Nat) : Except Fault (List α) :=
  if xs.length * n > maxRepeated then .error (.invalidOperation "result is too long")
  else .ok (List.replicate n xs).flatten

/-- Multiplication, and the repetition of texts and lists. -/
def mul (a b : Value) : Except Fault Value :=
  let repeatText (s : String) (n : Value) : Except Fault Value := do
    let cs ← repeated s.toList (← repetitions n)
    .ok (text (String.ofList cs))
  let repeatList (xs : List Value) (n : Value) : Except Fault Value := do
    .ok (seq (← repeated xs (← repetitions n)) true)
  match a, b with
  | str s _, n => repeatText s n
  | n, str s _ => repeatText s n
  | a, b =>
    match listItems? a, listItems? b with
    | some xs, _ => repeatList xs b
    | Option.none, some ys => repeatList ys a
    | _, _ => arithmetic "*" a b (fun m n => inInt "*" (m * n)) (· * ·)

/-- Division, always of doubles. -/
def div (a b : Value) : Except Fault Value :=
  match a.asFloat? true, b.asFloat? true with
  | some x, some y => .ok (float (.ofFloat (x.toFloat / y.toFloat)))
  | _, _ => unsupported "/" a b

/-- Euclidean division of doubles. -/
private def floorDivFloat (x y : Float) : Float :=
  let q := x / y
  let whole := if q < 0 then q.ceil else q.floor
  let r := x - whole * y
  if r < 0 then (if y > 0 then whole - 1 else whole + 1) else whole

/-- The remainder of doubles with the sign of the first. -/
private def remainderFloat (x y : Float) : Float :=
  let bx := Binary64.ofFloat x
  let byy := Binary64.ofFloat y
  if !bx.isFinite || byy.isNaN || byy.isZero then 0.0 / 0.0
  else if !byy.isFinite then x
  else
    let e := min bx.exponent byy.exponent
    let m := bx.significand * twoTo (bx.exponent - e).toNat
    let n := byy.significand * twoTo (byy.exponent - e).toNat
    let r := (Float.ofNat (m % n)).scaleB e
    if bx.isNegative then -r else r

/-- Euclidean division. -/
def floorDiv (a b : Value) : Except Fault Value :=
  arithmetic "//" a b
    (fun m n =>
      if n == 0 then .error (.invalidOperation "unable to calculate //: division by zero")
      else inInt "//" (m / n))
    floorDivFloat

/-- The remainder: that of integers is never negative, that of doubles has the sign of the first. -/
def mod (a b : Value) : Except Fault Value :=
  arithmetic "%" a b
    (fun m n =>
      if n == 0 then .error (.invalidOperation "unable to calculate %: division by zero")
      else inInt "%" (m % n))
    remainderFloat

/-- Integer powers that leave the range stop early. -/
private def powInt (m : Int) : Nat → Int → Option Int
  | 0, acc => some acc
  | n + 1, acc => if inRange (acc * m) then powInt m n (acc * m) else Option.none

/-- Powers. -/
def pow (a b : Value) : Except Fault Value :=
  let failed : Except Fault Value := .error (.invalidOperation "unable to calculate **")
  arithmetic "**" a b
    (fun m n =>
      if n < 0 || n ≥ 4294967296 then failed
      else if m == 0 || m == 1 || m == -1 then
        .ok (int (if n == 0 then 1 else if m == -1 && n % 2 == 0 then 1 else m))
      else match powInt m (min n.toNat 200) 1 with
        | some r => .ok (int r)
        | Option.none => failed)
    Float.pow

/-- A comparison. Nothing can be said of undefined values, not even that they are equal. -/
def comparison (holds : Value → Value → Bool) (a b : Value) : Except Fault Value :=
  if a.isUndefined || b.isUndefined then .error .undefinedValue else .ok (bool (holds a b))

/-- Negation. -/
def neg (v : Value) : Except Fault Value :=
  match v with
  | int n => inInt "-" (-n)
  | float x => .ok (float (.ofFloat (-x.toFloat)))
  | _ => .error (.invalidOperation ("cannot negate " ++ v.kind.name))

/-- Whether a value is contained in another: a part of a text, an item of a list, a key of a
mapping. -/
def contains (container v : Value) : Except Fault Bool :=
  match container with
  | undefined => .ok false
  | str s _ => .ok ((s.splitOn v.toText).length > 1 || v.toText == "")
  | seq items _ => .ok (items.any (same · v))
  | cluster key items => .ok (same key v || same (list items) v)
  | map entries => .ok (getKey? entries v).isSome
  | named entries => .ok (match v with
    | str s _ => entries.any (·.1 == s)
    | _ => false)
  | c => .error (.invalidOperation ("cannot perform a containment check on " ++ c.kind.name))

/-- The positions that a slice takes of a list of some length. -/
private def slicePlaces (length : Nat) (start stop : Option Int) (step : Int) : List Nat :=
  let n : Int := length
  let clamp (lo hi i : Int) : Int := max lo (min hi i)
  let fix (i : Int) : Int := if i < 0 then i + n else i
  if step > 0 then
    let a := clamp 0 n ((start.map fix).getD 0)
    let b := clamp 0 n ((stop.map fix).getD n)
    if a ≥ b then [] else
      (List.range (((b - a + step - 1) / step).toNat)).map fun (k : Nat) => (a + k * step).toNat
  else
    let a := clamp (-1) (n - 1) ((start.map fix).getD (n - 1))
    let b := match stop with
      | some i => clamp (-1) (n - 1) (fix i)
      | Option.none => -1
    if a ≤ b then [] else
      let down := -step
      (List.range (((a - b + down - 1) / down).toNat)).map fun (k : Nat) => (a - k * down).toNat

/-- A bound of a slice. -/
private def sliceBound (v : Value) : Except Fault (Option Int) :=
  match v with
  | none => .ok Option.none
  | v => match v.asInt? with
    | some n => if minInt64 ≤ n && n ≤ maxInt64 then .ok (some n)
      else .error (.invalidOperation "slice bound out of range")
    | Option.none => .error (.invalidOperation ("cannot convert " ++ v.kind.name ++ " to i64"))

/-- A part of a text or list. -/
def slice (v start stop step : Value) : Except Fault Value := do
  if v.isUndefined then throw .undefinedValue
  let start ← sliceBound start
  let stop ← sliceBound stop
  let step := (← sliceBound step).getD 1
  if step == 0 then throw (.invalidOperation "cannot slice by step size of 0")
  match v with
  | none => .ok (list [])
  | str s _ =>
    let cs := s.toList.toArray
    .ok (text (String.ofList ((slicePlaces cs.size start stop step).filterMap (cs[·]?))))
  | v =>
    match listItems? v with
    | some items =>
      let xs := items.toArray
      .ok (seq ((slicePlaces xs.size start stop step).filterMap (xs[·]?)) true)
    | Option.none =>
      .error (.invalidOperation ("value of type " ++ v.kind.name ++ " cannot be sliced"))

end SoftwareCensus.Template.Value
