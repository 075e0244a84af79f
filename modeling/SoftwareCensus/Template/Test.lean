import SoftwareCensus.Template.Filter.Facts

/-!
# Tests of values

The tests behind `is`: of the kind of a value, of numbers and texts, comparisons, and the tests of
facts.
-/

namespace SoftwareCensus.Template

open Args Text

/-- Whether a value lies in another one; what can hold nothing holds nothing. -/
private def liesIn (v container : Value) : Except Fault Bool :=
  match container with
  | .undefined => .error .undefinedValue
  | c => .ok ((Value.contains c v).toOption.getD false)

/-- Whether an integer divides another one without remainder. -/
private def isDivisible (v by_ : Value) : Bool :=
  match Value.common? false v by_ with
  | some (.ints m n) => n != 0 && m % n == 0
  | some (.floats _ _) => match Value.mod v by_ with
    | .ok (.float r) => r.isZero
    | _ => false
  | _ => false

/-- Whether two values are the same thing and not only equal. -/
private def isSame (a b : Value) : Bool :=
  a.kind == b.kind && a.same b

/-- The tests of the kind of a value. -/
def kindTest? (name : String) : Option (Value → Bool) :=
  match name with
  | "undefined" => some Value.isUndefined
  | "defined" => some fun v => !v.isUndefined
  | "none" => some Value.isNone
  | "safe" | "escaped" => some fun
    | .str _ safe => safe
    | _ => false
  | "boolean" => some fun v => v.kind == .bool
  | "number" => some fun v => v.kind == .number
  | "integer" | "int" => some fun
    | .int _ => true
    | _ => false
  | "float" => some fun
    | .float _ => true
    | _ => false
  | "string" => some fun v => v.kind == .string
  | "sequence" => some fun v => v.kind == .sequence
  | "iterable" => some fun v => v.items?.isSome
  | "mapping" => some fun v => v.kind == .map
  | "true" => some fun
    | .bool b => b
    | _ => false
  | "false" => some fun
    | .bool b => !b
    | _ => false
  | "odd" => some fun v => v.asInt?.any (· % 2 != 0)
  | "even" => some fun v => v.asInt?.any (· % 2 == 0)
  | _ => none

/-- The tests that compare two values. -/
def comparison? (name : String) : Option (Value → Value → Except Fault Bool) :=
  match name with
  | "eq" | "equalto" | "==" => some fun a b => .ok (a.same b)
  | "ne" | "!=" => some fun a b => .ok !(a.same b)
  | "lt" | "lessthan" | "<" => some fun a b => .ok (a.cmp b == .lt)
  | "le" | "<=" => some fun a b => .ok (a.cmp b != .gt)
  | "gt" | "greaterthan" | ">" => some fun a b => .ok (a.cmp b == .gt)
  | "ge" | ">=" => some fun a b => .ok (a.cmp b != .lt)
  | "in" => some liesIn
  | "sameas" => some fun a b => .ok (isSame a b)
  | "divisibleby" => some fun a b => .ok (isDivisible a b)
  | _ => none

/-- The tests of texts. -/
def textTest? (name : String) : Option (List Value → Except Fault Bool) :=
  match name with
  | "lower" => some fun args => do
    return (← all args (required asLetters)).toList.all lowercase.contains
  | "upper" => some fun args => do
    return (← all args (required asLetters)).toList.all uppercase.contains
  | "startingwith" => some fun args => all args do
    let s ← required asText
    return s.startsWith (← required asText)
  | "endingwith" => some fun args => all args do
    let s ← required asText
    return s.endsWith (← required asText)
  | _ => none

/-- The test of a name, applied to a value and further arguments. -/
def testOf? (name : String) : Option (List Value → Except Fault Bool) :=
  match Filter.factTest? name with
  | some t => some t
  | none => match kindTest? name with
    | some t => some fun args => do return t (← all args value)
    | none => match comparison? name with
      | some t => some fun args => do
        let (a, b) ← all args do
          let a ← value
          return (a, ← value)
        t a b
      | none => textTest? name

end SoftwareCensus.Template
