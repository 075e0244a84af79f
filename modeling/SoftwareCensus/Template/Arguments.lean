import SoftwareCensus.Template.Value

/-!
# Arguments of filters, tests, functions and methods

Positional arguments are taken one by one, each converted to what the operation needs; named
arguments, if any, come last and together. What is left over at the end is too much.
-/

namespace SoftwareCensus.Template

/-- Taking arguments from a list. -/
abbrev Args := StateT (List Value) (Except Fault)

namespace Args

/-- A conversion that is not possible. -/
private def refused {α : Type} (v : Value) (wanted : String) : Except Fault α :=
  .error (.invalidOperation ("cannot convert " ++ v.kind.name ++ " to " ++ wanted))

/-- Refuses undefined values. -/
private def defined (v : Value) : Except Fault Value :=
  if v.isUndefined then .error .undefinedValue else .ok v

/-- The text of an argument; every value but named arguments has one. -/
def asText (v : Value) : Except Fault String := do
  match ← defined v with
  | .named _ => refused v "string"
  | v => .ok v.toText

/-- An integer of an argument between two bounds. -/
private def asWhole (lo hi : Int) (wanted : String) (v : Value) : Except Fault Int := do
  match (← defined v).asInt? with
  | some n => if lo ≤ n && n ≤ hi then .ok n else refused v wanted
  | none => refused v wanted

/-- The integer of an argument. -/
def asInt (v : Value) : Except Fault Int := asWhole Numeral.minInt64 Numeral.maxInt64 "integer" v

/-- The natural number of an argument. -/
def asNat (v : Value) : Except Fault Nat := do
  return (← asWhole 0 Numeral.maxUInt64 "unsigned integer" v).toNat

/-- The truth value of a boolean argument. -/
def asBool (v : Value) : Except Fault Bool := do
  match ← defined v with
  | .bool b => .ok b
  | v => refused v "bool"

/-- The letters of a text argument. -/
def asLetters (v : Value) : Except Fault String := do
  match ← defined v with
  | .str s _ => .ok s
  | v => refused v "string"

/-- Takes the next argument, if there is one. -/
def next? : Args (Option Value) := do
  match ← get with
  | [] => return none
  | v :: rest =>
    set rest
    return some v

/-- Takes an argument that has to be there. -/
def value : Args Value := do
  match ← next? with
  | some v => return v
  | none => throw .missingArgument

/-- Takes an argument that has to be there and converts it. -/
def required {α : Type} (convert : Value → Except Fault α) : Args α := do
  convert (← value)

/-- Takes an argument that may be missing, undefined or none, and converts it. -/
def optional {α : Type} (convert : Value → Except Fault α) : Args (Option α) := do
  match ← next? with
  | some v => if v.isUndefined || v.isNone then return none else some <$> convert v
  | none => return none

/-- Takes the named arguments. -/
def namedArgs : Args (List (String × Value)) := do
  match ← get with
  | [.named entries] =>
    set ([] : List Value)
    return entries
  | _ => return []

/-- Takes all arguments that are left. -/
def rest : Args (List Value) := do
  let vs ← get
  set ([] : List Value)
  return vs

/-- The value of a named argument that may be missing. -/
def lookup {α : Type} (entries : List (String × Value)) (name : String)
    (convert : Value → Except Fault α) : Except Fault (Option α) :=
  match entries.find? (·.1 == name) with
  | some (_, v) => if v.isUndefined || v.isNone then .ok none else some <$> convert v
  | none => .ok none

/-- Refuses named arguments other than these. -/
def onlyNamed (entries : List (String × Value)) (known : List String) : Except Fault Unit :=
  match entries.find? fun (k, _) => !known.contains k with
  | some (k, _) => .error (.tooManyArguments (some ("unknown keyword argument '" ++ k ++ "'")))
  | none => .ok ()

/-- Takes arguments, of which none may be left over. -/
def all {α : Type} (args : List Value) (take : Args α) : Except Fault α := do
  let (a, left) ← take.run args
  if left.isEmpty then .ok a else .error (.tooManyArguments none)

end Args

end SoftwareCensus.Template
