import SoftwareCensus.Document.Basic

/-!
# JSON text of a document

`Document.toJson` writes without any blank, `Document.toPrettyJson` with one entry a line and two
blanks of indentation. Text is escaped only where JSON demands it, doubles are written with the
fewest digits that read back.
-/

namespace SoftwareCensus

open Numeral

namespace Document

/-- Doubles are positional from `10^-5` up to below `10^16`, and an exponent carries its sign. -/
def jsonFloat : FloatLayout := ⟨-5, 15, true⟩

/-- The text of a double; what is not finite has no JSON numeral and becomes null. -/
def jsonNumeral (x : Binary64) : String :=
  if x.isFinite then x.format jsonFloat else "null"

/-- A lower-case hexadecimal digit. -/
def hexDigit (n : Nat) : Char := Nat.digitChar n

/-- Writes one character of a JSON string. -/
def escapeChar (c : Char) : String :=
  if c == '"' then "\\\""
  else if c == '\\' then "\\\\"
  else if c == '\n' then "\\n"
  else if c == '\r' then "\\r"
  else if c == '\t' then "\\t"
  else if c == '\x08' then "\\b"
  else if c == '\x0c' then "\\f"
  else if c.toNat < 0x20 then
    "\\u00" ++ String.ofList [hexDigit (c.toNat / 16), hexDigit (c.toNat % 16)]
  else String.singleton c

/-- A JSON string literal. -/
def quoteJson (s : String) : String :=
  s.foldl (fun acc c => acc ++ escapeChar c) "\"" ++ "\""

/-! ## Without blanks -/

mutual

/-- Appends the JSON text of a value. -/
def writeJson (out : String) : Document → String
  | null => out ++ "null"
  | bool true => out ++ "true"
  | bool false => out ++ "false"
  | int n => out ++ toString n
  | float x => out ++ jsonNumeral x
  | str s => out ++ quoteJson s
  | list items => writeJsonItems (out ++ "[") true items ++ "]"
  | map fields => writeJsonFields (out ++ "\x7b") true fields ++ "\x7d"

/-- Appends the items of a list, separated by commas. -/
def writeJsonItems (out : String) (first : Bool) : List Document → String
  | [] => out
  | d :: rest => writeJsonItems (writeJson (if first then out else out ++ ",") d) false rest

/-- Appends the entries of a mapping, separated by commas. -/
def writeJsonFields (out : String) (first : Bool) : List (String × Document) → String
  | [] => out
  | (k, d) :: rest =>
    let out := (if first then out else out ++ ",") ++ quoteJson k ++ ":"
    writeJsonFields (writeJson out d) false rest

end

/-- The JSON text of a value, without blanks. -/
def toJson (d : Document) : String := writeJson "" d

/-! ## Indented -/

/-- A line break and the indentation of a depth. -/
def jsonBreak (depth : Nat) : String := "\n" ++ String.ofList (List.replicate (2 * depth) ' ')

mutual

/-- Appends the indented JSON text of a value at a depth. -/
def writePretty (depth : Nat) (out : String) : Document → String
  | null => out ++ "null"
  | bool true => out ++ "true"
  | bool false => out ++ "false"
  | int n => out ++ toString n
  | float x => out ++ jsonNumeral x
  | str s => out ++ quoteJson s
  | list [] => out ++ "[]"
  | list items => writePrettyItems (depth + 1) (out ++ "[") true items ++ jsonBreak depth ++ "]"
  | map [] => out ++ "\x7b\x7d"
  | map fields =>
    writePrettyFields (depth + 1) (out ++ "\x7b") true fields ++ jsonBreak depth ++ "\x7d"

/-- Appends the items of a list, each on a line of its own. -/
def writePrettyItems (depth : Nat) (out : String) (first : Bool) : List Document → String
  | [] => out
  | d :: rest =>
    let out := (if first then out else out ++ ",") ++ jsonBreak depth
    writePrettyItems depth (writePretty depth out d) false rest

/-- Appends the entries of a mapping, each on a line of its own. -/
def writePrettyFields (depth : Nat) (out : String) (first : Bool) :
    List (String × Document) → String
  | [] => out
  | (k, d) :: rest =>
    let out := (if first then out else out ++ ",") ++ jsonBreak depth ++ quoteJson k ++ ": "
    writePrettyFields depth (writePretty depth out d) false rest

end

/-- The JSON text of a value, one entry a line. -/
def toPrettyJson (d : Document) : String := writePretty 0 "" d

/-! ## Display -/

/-- The form of a value inside a larger text: text as it is, null and booleans as capitalised
words, everything else as JSON. -/
def display : Document → String
  | null => "None"
  | bool true => "True"
  | bool false => "False"
  | str s => s
  | d => d.toJson

end Document

end SoftwareCensus
