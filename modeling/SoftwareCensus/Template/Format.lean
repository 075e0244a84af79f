import SoftwareCensus.Numeral.Binary64
import SoftwareCensus.Template.Value

/-!
# Format strings

Two notations that put values into a text: percent directives such as `%05.2f`, and fields in
braces such as `{0:>8}`. Both pad to a width and convert numbers in the same ways.
-/

namespace SoftwareCensus.Template

open Numeral

/-- How a value is put into a text. -/
structure Layout where
  fill : Char := ' '
  align : Option Char := none
  sign : Option Char := none
  alternate : Bool := false
  zeroPad : Bool := false
  width : Nat := 0
  grouping : Option Char := none
  precision : Option Nat := none
  type : Option Char := none
  deriving Inhabited

namespace Layout

/-- A format that does not fit the value. -/
private def bad {α : Type} (why : String) : Except Fault α := .error (.invalidOperation why)

/-- The sign in front of a number. -/
private def signText (l : Layout) (negative : Bool) : String :=
  if negative then "-"
  else match l.sign with
    | some '+' => "+"
    | some ' ' => " "
    | _ => ""

/-- Fills up to the width; numbers align right and text left, unless told otherwise. -/
private def pad (l : Layout) (isNumber : Bool) (lead body : String) : String :=
  let missing := l.width - (lead.length + body.length)
  let fill (n : Nat) (c : Char) : String := String.ofList (List.replicate n c)
  match l.align with
  | some '<' => lead ++ body ++ fill missing l.fill
  | some '>' => fill missing l.fill ++ lead ++ body
  | some '^' =>
    fill (missing / 2) l.fill ++ lead ++ body ++ fill (missing - missing / 2) l.fill
  | some '=' => lead ++ fill missing l.fill ++ body
  | _ =>
    if isNumber && l.zeroPad then lead ++ fill missing '0' ++ body
    else if isNumber then fill missing l.fill ++ lead ++ body
    else lead ++ body ++ fill missing l.fill

/-- Separates groups of three digits. -/
private def groupDigits (mark : Char) (digits : String) : String :=
  let rec go : Nat → List Char → List Char
    | _, [] => []
    | n, c :: rest => if n == 3 then mark :: c :: go 1 rest else c :: go (n + 1) rest
  String.ofList (go 0 digits.toList.reverse).reverse

/-- An integer in a base. -/
private def integer (l : Layout) (n : Int) : Except Fault String :=
  let digits (base : Nat) : String := String.ofList (Nat.toDigits base n.natAbs)
  let done (mark body : String) : Except Fault String :=
    let body := match l.precision with
      | some p => String.ofList (List.replicate (p - body.length) '0') ++ body
      | none => body
    let body := match l.grouping with
      | some g => groupDigits g body
      | none => body
    .ok (l.pad true (l.signText (n < 0) ++ if l.alternate then mark else "") body)
  match l.type with
  | some 'x' => done "0x" (digits 16)
  | some 'X' => done "0X" (digits 16).toUpper
  | some 'o' => done "0o" (digits 8)
  | some 'b' => done "0b" (digits 2)
  | _ => done "" (digits 10)

/-- Digits in scientific notation. -/
private def scientific (x : Binary64) (places : Nat) (mark : Char) : String :=
  let (ds, e) := x.rounded places
  let mantissa := match ds with
    | [] => "0"
    | d :: rest =>
      if rest.isEmpty then String.singleton d else String.singleton d ++ "." ++ String.ofList rest
  let digits := toString e.natAbs
  mantissa ++ String.singleton mark ++ (if e < 0 then "-" else "+") ++
    (if digits.length < 2 then "0" ++ digits else digits)

/-- Removes the zeros behind the point, and the point if nothing else is left behind it. -/
private def trimZeros (s : String) : String :=
  if !s.toList.contains '.' then s
  else
    let cs := s.toList.reverse.dropWhile (· == '0')
    let cs := match cs with
      | '.' :: rest => rest
      | cs => cs
    String.ofList cs.reverse

/-- Digits in the shorter of both notations. -/
private def general (l : Layout) (x : Binary64) (places : Nat) (mark : Char) : String :=
  let p := max places 1
  let (_, e) := x.rounded (p - 1)
  if e < -4 || e ≥ p then
    let s := scientific x (p - 1) mark
    if l.alternate then s
    else
      let (mantissa, rest) := s.toList.span (· != mark)
      trimZeros (String.ofList mantissa) ++ String.ofList rest
  else
    let s := x.fixed ((p : Int) - 1 - e).toNat
    if l.alternate then s else trimZeros s

/-- A double. -/
private def double (l : Layout) (x : Binary64) : Except Fault String :=
  let lead := l.signText x.isNegative
  let upper := match l.type with
    | some 'F' | some 'E' | some 'G' => true
    | _ => false
  if x.isNaN then .ok ({ l with zeroPad := false }.pad true "" (if upper then "NAN" else "nan"))
  else if !x.isFinite then
    .ok ({ l with zeroPad := false }.pad true lead (if upper then "INF" else "inf"))
  else
    let places := l.precision.getD 6
    let body := match l.type with
      | some 'e' => scientific x places 'e'
      | some 'E' => scientific x places 'E'
      | some 'g' => general l x places 'g' |>.replace "g" "e"
      | some 'G' => general l x places 'G' |>.replace "G" "E"
      | some '%' =>
        (Binary64.ofFloat (x.toFloat * 100.0)).fixed places ++ "%"
      | some _ => x.fixed places
      | none =>
        match l.precision with
        | some p => general l x p 'e'
        | none => x.shortest.positional
    let body := match l.grouping with
      | some g =>
        let (whole, rest) := body.toList.span (· != '.')
        groupDigits g (String.ofList whole) ++ String.ofList rest
      | none => body
    .ok (l.pad true lead body)

/-- A text. -/
private def letters (l : Layout) (s : String) : String :=
  let s := match l.precision with
    | some p => (s.take p).toString
    | none => s
  l.pad false "" s

/-- Puts a value into a text. -/
def apply (l : Layout) (v : Value) : Except Fault String :=
  match l.type with
  | some 's' => .ok (l.letters v.toText)
  | some 'r' | some 'a' => .ok (l.letters v.inspect)
  | some 'c' =>
    match v with
    | .int n =>
      if 0 ≤ n && n ≤ 0x10ffff then .ok (l.letters (String.singleton (Char.ofNat n.toNat)))
      else bad "character code out of range"
    | .str s _ => if s.length == 1 then .ok (l.letters s) else bad "expected a single character"
    | _ => bad "expected a character"
  | some c =>
    if "diuxXob".toList.contains c then
      match v with
      | .int n => l.integer n
      | .bool b => l.integer (if b then 1 else 0)
      | .float x => if x.isFinite then l.integer (Value.truncate x) else bad "expected an integer"
      | _ => bad "expected an integer"
    else if "eEfFgG%".toList.contains c then
      match v.asFloat? true with
      | some x => l.double x
      | none => bad "expected a number"
    else bad "unknown format"
  | none =>
    match v with
    | .int n => l.integer n
    | .float x => l.double x
    | v => .ok (l.letters v.toText)

end Layout

/-! ## Percent directives -/

/-- Reads the flags of a directive. -/
private def readFlags (l : Layout) : List Char → Layout × List Char
  | '-' :: rest => readFlags { l with align := some '<' } rest
  | '+' :: rest => readFlags { l with sign := some '+' } rest
  | ' ' :: rest => readFlags (if l.sign.isSome then l else { l with sign := some ' ' }) rest
  | '0' :: rest => readFlags { l with zeroPad := true } rest
  | '#' :: rest => readFlags { l with alternate := true } rest
  | rest => (l, rest)

/-- Fills in percent directives. The first argument bounds their number. -/
private def fillPercent (named : List (String × Value)) :
    Nat → List Char → List Value → List Char → Except Fault String
  | 0, out, _, _ => .ok (String.ofList out.reverse)
  | bound + 1, out, args, cs =>
    match cs with
    | [] =>
      if args.isEmpty then .ok (String.ofList out.reverse)
      else .error (.invalidOperation "not all arguments converted during string formatting")
    | '%' :: '%' :: rest => fillPercent named bound ('%' :: out) args rest
    | '%' :: rest => do
      let (key, rest) ← match rest with
        | '(' :: rest =>
          let (name, rest) := rest.span (· != ')')
          match rest with
          | ')' :: rest => pure (some (String.ofList name), rest)
          | _ => throw (.invalidOperation "incomplete format key")
        | rest => pure (none, rest)
      let (l, rest) := readFlags {} rest
      let (l, args, rest) ← match rest with
        | '*' :: rest =>
          match args with
          | v :: args =>
            match v.asInt? with
            | some n => pure ({ l with width := n.natAbs }, args, rest)
            | none => throw (.invalidOperation "* wants int")
          | [] => throw (.invalidOperation "not enough arguments for format string")
        | rest =>
          let (ds, rest) := spanDigits rest
          pure ({ l with width := ofDigits ds }, args, rest)
      let (l, rest) := match rest with
        | '.' :: rest =>
          let (ds, rest) := spanDigits rest
          ({ l with precision := some (ofDigits ds) }, rest)
        | rest => (l, rest)
      match rest with
      | [] => throw (.invalidOperation "incomplete format")
      | c :: rest =>
        let l := { l with type := some (if c == 'i' || c == 'u' then 'd' else c) }
        let (v, args) ← match key with
          | some name =>
            match named.find? (·.1 == name) with
            | some (_, v) => pure (v, args)
            | none => throw (.invalidOperation "missing format key")
          | none =>
            match args with
            | v :: args => pure (v, args)
            | [] => throw (.invalidOperation "not enough arguments for format string")
        let s ← l.apply v
        fillPercent named bound (s.toList.reverse ++ out) args rest
    | c :: rest => fillPercent named bound (c :: out) args rest

/-- Fills values into a text with percent directives. -/
def formatPercent (text : String) (args : List Value) : Except Fault String :=
  let (args, named) := match args.getLast? with
    | some (.named entries) => (args.dropLast, entries)
    | _ => (args, [])
  fillPercent named (text.length + 1) [] args text.toList

/-! ## Fields in braces -/

/-- Reads the layout behind the colon of a field. -/
private def readLayout (cs : List Char) : Option Layout :=
  let isAlign (c : Char) : Bool := c == '<' || c == '>' || c == '^' || c == '='
  let (l, cs) : Layout × List Char := match cs with
    | f :: a :: rest =>
      if isAlign a then ({ fill := f, align := some a }, rest)
      else if isAlign f then ({ align := some f }, a :: rest)
      else ({}, cs)
    | [a] => if isAlign a then ({ align := some a }, []) else ({}, cs)
    | [] => ({}, [])
  let (l, cs) := match cs with
    | c :: rest =>
      if c == '+' || c == '-' || c == ' ' then ({ l with sign := some c }, rest) else (l, cs)
    | [] => (l, cs)
  let (l, cs) := match cs with
    | '#' :: rest => ({ l with alternate := true }, rest)
    | cs => (l, cs)
  let (l, cs) := match cs with
    | '0' :: rest => ({ l with zeroPad := true }, rest)
    | cs => (l, cs)
  let (ds, cs) := spanDigits cs
  let l := { l with width := ofDigits ds }
  let (l, cs) := match cs with
    | ',' :: rest => ({ l with grouping := some ',' }, rest)
    | '_' :: rest => ({ l with grouping := some '_' }, rest)
    | cs => (l, cs)
  let (l, cs) := match cs with
    | '.' :: rest =>
      let (ds, rest) := spanDigits rest
      ({ l with precision := some (ofDigits ds) }, rest)
    | cs => (l, cs)
  match cs with
  | [] => some l
  | [c] => some { l with type := some c }
  | _ => none

/-- Follows the attributes and indices behind the name of a field. -/
private def followField : Nat → Value → List Char → Except Fault Value
  | 0, v, _ => .ok v
  | bound + 1, v, cs =>
    match cs with
    | [] => .ok v
    | '.' :: rest =>
      let (name, rest) := rest.span fun c => c != '.' && c != '['
      followField bound ((v.attr? (String.ofList name)).getD .undefined) rest
    | '[' :: rest =>
      let (key, rest) := rest.span (· != ']')
      let keyValue := match readNat? key with
        | some n => Value.int n
        | none => Value.text (String.ofList key)
      followField bound ((v.item? keyValue).getD .undefined) (rest.drop 1)
    | _ => .error (.invalidOperation "malformed format field")

/-- Fills in fields in braces. The first argument bounds their number; `next` counts the fields
without a name. -/
private def fillBraces (args : List Value) (named : List (String × Value)) :
    Nat → Nat → List Char → List Char → Except Fault String
  | 0, _, out, _ => .ok (String.ofList out.reverse)
  | bound + 1, next, out, cs =>
    match cs with
    | [] => .ok (String.ofList out.reverse)
    | '{' :: '{' :: rest => fillBraces args named bound next ('{' :: out) rest
    | '}' :: '}' :: rest => fillBraces args named bound next ('}' :: out) rest
    | '}' :: _ => .error (.invalidOperation "single closing brace in format string")
    | '{' :: rest => do
      let (field, rest) := rest.span (· != '}')
      if rest.isEmpty then throw (.invalidOperation "unclosed brace in format string")
      let (name, spec) := field.span (· != ':')
      let (name, conversion) := name.span (· != '!')
      let (head, tail) := name.span fun c => c != '.' && c != '['
      let (v?, next) : Option Value × Nat :=
        if head.isEmpty then (args[next]?, next + 1)
        else match readNat? head with
          | some n => (args[n]?, next)
          | none => ((named.find? (·.1 == String.ofList head)).map (·.2), next)
      match v?, readLayout (spec.drop 1) with
      | none, _ => throw (.invalidOperation "format argument is missing")
      | _, none => throw (.invalidOperation "invalid format specification")
      | some v, some l =>
        let v ← followField (tail.length + 1) v tail
        let v := match conversion with
          | ['!', 'r'] => Value.text v.inspect
          | ['!', 's'] => Value.text v.toText
          | _ => v
        let s ← l.apply v
        fillBraces args named bound next (s.toList.reverse ++ out) (rest.drop 1)
    | c :: rest => fillBraces args named bound next (c :: out) rest

/-- Fills values into a text with fields in braces. -/
def formatBraces (text : String) (args : List Value) : Except Fault String :=
  let (args, named) := match args.getLast? with
    | some (.named entries) => (args.dropLast, entries)
    | _ => (args, [])
  fillBraces args named (text.length + 1) 0 [] text.toList

end SoftwareCensus.Template
