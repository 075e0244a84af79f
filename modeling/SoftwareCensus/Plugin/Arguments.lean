import SoftwareCensus.Document.Json.Printer
import SoftwareCensus.Numeral.Decimal
import SoftwareCensus.Text.Category
import SoftwareCensus.Text.Case

/-!
# Arguments of plugins

What arguments a plugin takes, and the normal form of what it is given: known fields of their
types, with defaults for those that are missing. Scalars are converted where their text allows it.
-/

namespace SoftwareCensus

open Numeral

/-! ## Shapes -/

/-- The type of an argument. -/
inductive ArgType where
  | str
  | int
  | bool
  | dict
  | list
  /-- Any value. -/
  | raw
  deriving DecidableEq, Inhabited, Repr

namespace ArgType

/-- All types. -/
def all : List ArgType := [str, int, bool, dict, list, raw]

/-- The name of a type. -/
def name : ArgType → String
  | str => "str"
  | int => "int"
  | bool => "bool"
  | dict => "dict"
  | list => "list"
  | raw => "raw"

/-- The name of a type in messages. -/
def title : ArgType → String
  | str => "Str"
  | int => "Int"
  | bool => "Bool"
  | dict => "Dict"
  | list => "List"
  | raw => "Raw"

end ArgType

/-- A named argument. -/
structure ArgField where
  name : String
  type : ArgType
  required : Bool := false
  default : Option Document := none
  deriving Inhabited

/-- The arguments that a plugin takes. -/
inductive ArgShape where
  /-- A mapping with known fields. -/
  | fields (fields : List ArgField)
  /-- Any mapping; its keys are data. -/
  | mapping
  /-- A list; a text stands for a list of itself. -/
  | list
  deriving Inhabited

/-- The document of a field. -/
def ArgField.toDocument (f : ArgField) : Document :=
  .ofFields ([("name", .str f.name), ("type", .str f.type.name), ("required", .bool f.required)] ++
    match f.default with
    | some d => [("default", d)]
    | none => [])

/-- The document of a shape. -/
def ArgShape.toDocument : ArgShape → Document
  | fields fs => .ofFields
    [("shape", .str "fields"), ("fields", .list (fs.map ArgField.toDocument))]
  | mapping => .ofFields [("shape", .str "mapping")]
  | list => .ofFields [("shape", .str "list")]

/-! ## Flaws -/

/-- What is wrong with arguments. -/
inductive ArgFlaw where
  | notMapping (kind : String)
  | notList (kind : String)
  | unsupported (names : List String)
  | notInteger (field text : String)
  | notBoolean (field text : String)
  | wrongType (field : String) (type : ArgType) (kind : String)
  | missing (field : String)
  /-- None of several fields is there. -/
  | missingAll (fields : List String)
  /-- An update is no mapping with a path and a value. -/
  | badUpdate (index : Nat)
  /-- What a plugin finds by itself. -/
  | other (why : String)
  deriving DecidableEq, Inhabited, Repr

/-- The text of a flaw. -/
def ArgFlaw.message : ArgFlaw → String
  | notMapping kind => "expected a mapping, got " ++ kind
  | notList kind => "expected a list, got " ++ kind
  | unsupported names => "unsupported parameters: " ++ ", ".intercalate names
  | notInteger field text => "argument '" ++ field ++ "' '" ++ text ++ "' is not an integer"
  | notBoolean field text => "argument '" ++ field ++ "' '" ++ text ++ "' is not a boolean"
  | wrongType field type kind =>
    "argument '" ++ field ++ "' must be of type " ++ type.title ++ ", got " ++ kind
  | missing field => "missing required argument '" ++ field ++ "'"
  | missingAll fields => "one of the following is required: " ++ ", ".intercalate fields
  | badUpdate index =>
    "updates[" ++ toString index ++ "] must be a mapping with a valid 'path' and a 'value'"
  | other why => why

/-! ## Conversion -/

/-- The integer that a text stands for. -/
def integerOf? (s : String) : Option Int :=
  (readInt? (Text.trimList s.toList)).filter fun n => minInt64 ≤ n && n ≤ maxInt64

/-- The truth value that a text stands for. -/
def truthOf? (s : String) : Option Bool :=
  let word := Text.asciiLower (Text.trim s)
  if ["yes", "true", "on", "1", "y"].contains word then some true
  else if ["no", "false", "off", "0", "n"].contains word then some false
  else none

/-- Converts the value of a field to a type. -/
def ArgType.convert (field : String) (type : ArgType) (d : Document) : Except ArgFlaw Document :=
  match type, d with
  | .raw, d => .ok d
  | .str, .str s => .ok (.str s)
  | .str, .int n => .ok (.str (toString n))
  | .str, .float x => .ok (.str (Document.float x).toJson)
  | .str, .bool b => .ok (.str (if b then "true" else "false"))
  | .int, .int n => .ok (.int n)
  | .int, .str s => match integerOf? s with
    | some n => .ok (.int n)
    | none => .error (.notInteger field s)
  | .bool, .bool b => .ok (.bool b)
  | .bool, .str s => match truthOf? s with
    | some b => .ok (.bool b)
    | none => .error (.notBoolean field s)
  | .dict, .map fields => .ok (.map fields)
  | .list, .list items => .ok (.list items)
  | .list, .str s => .ok (.list ((s.splitOn ",").map fun part => .str (Text.trim part)))
  | type, d => .error (.wrongType field type d.kind)

/-! ## Validation -/

namespace ArgShape

/-- Takes the fields from what is given, one after another, and adds them to those taken so far. -/
def takeFields (given taken : Fields) : List ArgField → Except ArgFlaw Fields
  | [] => .ok taken
  | f :: rest =>
    match (given.get? f.name).filter (!·.isNull) with
    | some d => do
      let d ← f.type.convert f.name d
      takeFields (given.erase f.name) (taken.insert f.name d) rest
    | none =>
      if f.required then .error (.missing f.name)
      else
        let taken := match f.default with
          | some d => taken.insert f.name d
          | none => taken
        takeFields (given.erase f.name) taken rest

/-- The normal form of a mapping with known fields. -/
def validateFields (fs : List ArgField) (given : Fields) : Except ArgFlaw Document :=
  match given.keys.filter fun key => !fs.any (·.name == key) with
  | [] => (takeFields given [] fs).map .map
  | unknown => .error (.unsupported unknown)

/-- The normal form of arguments; nothing stands for arguments that are empty. -/
def validate (shape : ArgShape) (args : Document) : Except ArgFlaw Document :=
  match shape with
  | .mapping => match args with
    | .map given => .ok (.map given)
    | .null => .ok .empty
    | d => .error (.notMapping d.kind)
  | .list => match args with
    | .list items => .ok (.list items)
    | .str s => .ok (.list [.str s])
    | .null => .ok (.list [])
    | d => .error (.notList d.kind)
  | .fields fs => match args with
    | .map given => validateFields fs given
    | .null => validateFields fs []
    | d => .error (.notMapping d.kind)

end ArgShape

end SoftwareCensus
