import SoftwareCensus.Document.Toml.Scalar
import SoftwareCensus.Document.Toml.Table

/-!
# Reading TOML

A text is a sequence of statements, each on a line of its own: entries, headers of tables and
headers of tables in lists.
-/

namespace SoftwareCensus.Toml

/-! ## Keys -/

/-- How deep values and keys may be. -/
def maxDepth : Nat := 80

/-- Drops blanks. -/
def skipSpace (cs : List Char) : List Char := cs.dropWhile isSpace

/-- Whether a character can stand in a key without quotes. -/
def isBareChar (c : Char) : Bool := c.isAlphanum || c == '_' || c == '-'

/-- Reads one part of a key. -/
def readKeyPart? (cs : List Char) : Option (String × List Char) :=
  match cs with
  | q :: rest =>
    if q == '"' || q == '\'' then
      (readLine (q == '"') q (rest.length + 1) [] rest).map fun (s, rest) => (String.ofList s, rest)
    else match cs.span isBareChar with
      | ([], _) => none
      | (name, rest) => some (String.ofList name, rest)
  | [] => none

/-- Reads the parts of a key. The first argument bounds their number. -/
def readKeyParts : Nat → List Char → Option (List String × List Char)
  | 0, _ => none
  | bound + 1, cs => do
    let (part, rest) ← readKeyPart? (skipSpace cs)
    match skipSpace rest with
    | '.' :: rest =>
      let (parts, rest) ← readKeyParts bound rest
      return (part :: parts, rest)
    | rest => return ([part], rest)

/-- Reads a key: the tables that it goes through, its name in the last of them, and what follows. -/
def readKey? (cs : List Char) : Option (List String × String × List Char) := do
  let (parts, rest) ← readKeyParts (maxDepth - 1) cs
  return (parts.dropLast, ← parts.getLast?, rest)

/-! ## Line ends -/

/-- Drops a comment, if there is one. -/
def skipComment : List Char → List Char
  | '#' :: rest => rest.dropWhile isPlain
  | cs => cs

/-- Reads the rest of a line on which nothing but a comment stands. -/
def lineEnd? (cs : List Char) : Option (List Char) :=
  match skipComment (skipSpace cs) with
  | [] => some []
  | cs => newline? cs

/-- Drops blanks, comments and line ends. The first argument bounds the number of lines. -/
def skipGaps : Nat → List Char → Option (List Char)
  | 0, _ => none
  | bound + 1, cs =>
    match skipSpace cs with
    | [] => some []
    | c :: rest =>
      if c == '#' || c == '\n' || c == '\r' then (lineEnd? (c :: rest)).bind (skipGaps bound)
      else some (c :: rest)

/-! ## Values -/

/-- Puts the entries of a table between braces together. -/
def inlineTable? (entries : List (List String × String × Source)) : Option Source :=
  (entries.foldlM (fun (t : Table) (path, key, s) => t.assign path key s) ({} : Table)).map
    fun (t : Table) => t.node.toSource

mutual

/-- Reads a value. The first argument bounds the number of steps, the second one the depth. -/
def readValue : Nat → Nat → List Char → Option (Source × List Char)
  | 0, _, _ => none
  | bound + 1, depth, cs => match cs with
    | '[' :: rest => match depth with
      | 0 => none
      | depth + 1 => (readItems bound depth [] rest).map fun (items, rest) => (.list items, rest)
    | '{' :: rest => match depth with
      | 0 => none
      | depth + 1 => match skipSpace rest with
        | '}' :: rest => some (.map [], rest)
        | rest => (readEntries bound depth [] rest).bind fun (entries, rest) =>
          (inlineTable? entries).map fun s => (s, rest)
    | 't' :: 'r' :: 'u' :: 'e' :: rest => some (.bool true, rest)
    | 'f' :: 'a' :: 'l' :: 's' :: 'e' :: rest => some (.bool false, rest)
    | c :: _ =>
      if c == '"' || c == '\'' then (readText? cs).map fun (s, rest) => (.str s, rest)
      else readNumeric? cs
    | [] => none

/-- Reads the items of a list up to its bracket. Items read so far are held in reverse. -/
def readItems : Nat → Nat → List Source → List Char → Option (List Source × List Char)
  | 0, _, _, _ => none
  | bound + 1, depth, acc, cs => do
    match ← skipGaps (cs.length + 1) cs with
    | ']' :: rest => return (acc.reverse, rest)
    | cs =>
      let (item, rest) ← readValue bound depth cs
      match ← skipGaps (rest.length + 1) rest with
      | ',' :: rest => readItems bound depth (item :: acc) rest
      | ']' :: rest => return ((item :: acc).reverse, rest)
      | _ => none

/-- Reads the entries of a table between braces. Entries read so far are held in reverse. -/
def readEntries : Nat → Nat → List (List String × String × Source) → List Char →
    Option (List (List String × String × Source) × List Char)
  | 0, _, _, _ => none
  | bound + 1, depth, acc, cs => do
    let (path, key, rest) ← readKey? cs
    let rest ← char? '=' rest
    let (s, rest) ← readValue bound depth (skipSpace rest)
    match skipSpace rest with
    | ',' :: rest => readEntries bound depth ((path, key, s) :: acc) rest
    | '}' :: rest => return (((path, key, s) :: acc).reverse, rest)
    | _ => none

end

/-! ## Statements -/

/-- What stands on a line. -/
inductive Statement where
  | entry (path : List String) (key : String) (s : Source)
  | table (path : List String) (key : String)
  | item (path : List String) (key : String)
  deriving Inhabited

/-- Reads a statement. -/
def readStatement? (cs : List Char) : Option (Statement × List Char) := do
  match cs with
  | '[' :: '[' :: rest =>
    let (path, key, rest) ← readKey? rest
    return (.item path key, ← char? ']' (← char? ']' rest))
  | '[' :: rest =>
    let (path, key, rest) ← readKey? rest
    return (.table path key, ← char? ']' rest)
  | cs =>
    let (path, key, rest) ← readKey? cs
    let rest ← char? '=' rest
    let (s, rest) ← readValue (2 * rest.length + 2) (maxDepth - 1) (skipSpace rest)
    return (.entry path key s, rest)

/-- Reads the statements of a text. The first argument bounds their number. -/
def readStatements : Nat → List Char → Option (List Statement)
  | 0, _ => none
  | bound + 1, cs => do
    match ← skipGaps (cs.length + 1) cs with
    | [] => return []
    | cs =>
      let (statement, rest) ← readStatement? cs
      let rest ← lineEnd? rest
      return statement :: (← readStatements bound rest)

/-- Carries out statements. The second argument is the table that entries belong to. -/
def carryOut (root : Table) (place : List String) : List Statement → Option Table
  | [] => some root
  | .entry path key s :: rest => do
    let root ← root.change false (fun t => t.assign path key s) place
    carryOut root place rest
  | .table path key :: rest => do
    carryOut (← root.openTable path key) (path ++ [key]) rest
  | .item path key :: rest => do
    carryOut (← root.openItem path key) (path ++ [key]) rest

/-- Reads a text as a source. -/
def source? (text : String) : Option Source := do
  let cs := match text.toList with
    | '\ufeff' :: rest => rest
    | cs => cs
  let statements ← readStatements (cs.length + 1) cs
  return (← carryOut {} [] statements).node.toSource

end SoftwareCensus.Toml
