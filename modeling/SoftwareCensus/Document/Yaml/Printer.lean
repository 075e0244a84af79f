import SoftwareCensus.Document.Source
import SoftwareCensus.Document.Yaml.Cursor

/-!
# YAML text of a document

Block style throughout: mappings and lists on lines of their own, lists inside mappings without
extra indentation, and empty collections in brackets. Text is written plain where that is read
back as the same text, in single quotes where it could be taken for something else, as a literal
block where it has several lines, and in double quotes where nothing else can hold it.
-/

namespace SoftwareCensus.Yaml

open Numeral

/-- Doubles are positional from `10^-5` up to below `10^16`; exponents have no plus sign. -/
def floatLayout : FloatLayout := ⟨-5, 15, false⟩

/-- The text of a double. -/
def numeral (x : Binary64) : String :=
  if x.isNaN then ".nan"
  else if !x.isFinite then (if x.isNegative then "-.inf" else ".inf")
  else x.format floatLayout

/-! ## What a text allows -/

/-- Whether a character is written as it is. -/
private def isPrintable (c : Char) : Bool :=
  let n := c.toNat
  n == 0xa || (0x20 ≤ n && n ≤ 0x7e) || n == 0x85 || (0xa0 ≤ n && n ≤ 0xd7ff) ||
    (0xe000 ≤ n && n ≤ 0xfffd && n != 0xfeff)

/-- The ways in which a text may be written. -/
structure Styles where
  plain : Bool
  single : Bool
  block : Bool
  severalLines : Bool

/-- What has been seen of a text from left to right. -/
private structure Seen where
  indicators : Bool := false
  special : Bool := false
  breaks : Bool := false
  leadingSpace : Bool := false
  leadingBreak : Bool := false
  trailingSpace : Bool := false
  trailingBreak : Bool := false
  breakSpace : Bool := false
  spaceBreak : Bool := false

/-- Looks at a text from left to right. -/
private def look (first afterBlank lastSpace lastBreak : Bool) (s : Seen) : List Char → Seen
  | [] => s
  | c :: rest =>
    let beforeBlank := blankNext rest
    let isLast := rest.isEmpty
    let indicator :=
      if first then
        "#,[]\x7b\x7d&*!|>'\"%@\x60".toList.contains c ||
          ((c == '?' || c == ':' || c == '-') && beforeBlank)
      else (c == ':' && beforeBlank) || (c == '#' && afterBlank)
    let isSpace := c == ' '
    let isBrk := isBreak c
    let s := { s with
      indicators := s.indicators || indicator
      special := s.special || !isPrintable c
      breaks := s.breaks || isBrk
      leadingSpace := s.leadingSpace || (isSpace && first)
      leadingBreak := s.leadingBreak || (isBrk && first)
      trailingSpace := s.trailingSpace || (isSpace && isLast)
      trailingBreak := s.trailingBreak || (isBrk && isLast)
      breakSpace := s.breakSpace || (isSpace && lastBreak)
      spaceBreak := s.spaceBreak || (isBrk && lastSpace) }
    look false (isBlank c || isBrk) isSpace isBrk s rest

/-- The ways in which a text may be written. -/
def Styles.of (text : String) : Styles :=
  let cs := text.toList
  if cs.isEmpty then ⟨true, true, false, false⟩
  else
    let s := look true true false false {} cs
    let marked := text.startsWith "---" || text.startsWith "..."
    let never := s.spaceBreak || s.special
    ⟨!(s.leadingSpace || s.leadingBreak || s.trailingSpace || s.trailingBreak || s.breakSpace ||
        never || s.breaks || s.indicators || marked),
      !(s.breakSpace || never), !(s.trailingSpace || never), s.breaks⟩

/-- Words that older readers take for booleans. -/
private def oldBooleans : List String :=
  ["y", "Y", "yes", "Yes", "YES", "n", "N", "no", "No", "NO", "true", "True", "TRUE", "false",
   "False", "FALSE", "on", "On", "ON", "off", "Off", "OFF"]

/-- Whether a plain scalar would be read as something other than text, or looks like a number. -/
private def isTyped (text : String) : Bool :=
  match Source.settle text with
  | .str _ => Source.isZeroPadded text.toList
  | .foreign => !text.isEmpty
  | _ => true

/-! ## Scalars -/

/-- The two, four or eight digits of a numeric escape. -/
private def hexDigits (width n : Nat) : String :=
  let ds := Nat.toDigits 16 n
  String.ofList (List.replicate (width - ds.length) '0' ++ ds.map Char.toUpper)

/-- A character in double quotes. -/
private def escaped (c : Char) : String :=
  let n := c.toNat
  if c == '"' then "\\\""
  else if c == '\\' then "\\\\"
  else if isPrintable c && !isBreak c then String.singleton c
  else if n == 0 then "\\0"
  else if n == 7 then "\\a"
  else if n == 8 then "\\b"
  else if n == 9 then "\\t"
  else if n == 10 then "\\n"
  else if n == 11 then "\\v"
  else if n == 12 then "\\f"
  else if n == 13 then "\\r"
  else if n == 0x1b then "\\e"
  else if n == 0x85 then "\\N"
  else if n == 0xa0 then "\\_"
  else if n == 0x2028 then "\\L"
  else if n == 0x2029 then "\\P"
  else if n ≤ 0xff then "\\x" ++ hexDigits 2 n
  else if n ≤ 0xffff then "\\u" ++ hexDigits 4 n
  else "\\U" ++ hexDigits 8 n

/-- A text in double quotes. -/
private def doubleQuoted (text : String) : String :=
  text.foldl (fun acc c => acc ++ escaped c) "\"" ++ "\""

/-- Line break and indentation. -/
private def lineBreak (indent : Nat) : String := "\n" ++ String.ofList (List.replicate indent ' ')

/-- A text in single quotes; a line break is doubled, and lines behind one are indented. -/
private def singleQuoted (indent : Nat) (text : String) : String :=
  let rec go (afterBreak : Bool) : List Char → String
    | [] => ""
    | c :: rest =>
      if isBreak c then
        (if afterBreak then "" else "\n") ++ String.singleton c ++ go true rest
      else
        (if afterBreak then String.ofList (List.replicate indent ' ') else "") ++
          (if c == '\'' then "''" else String.singleton c) ++ go false rest
  "'" ++ go false text.toList ++ "'"

/-- A text as a literal block. -/
private def literalBlock (indent : Nat) (text : String) : String :=
  let cs := text.toList
  let hint := match cs with
    | c :: _ => if c == ' ' || isBreak c then "2" else ""
    | [] => ""
  let chomp := match cs.reverse with
    | [] => "-"
    | [c] => if isBreak c then "+" else "-"
    | c :: d :: _ => if !isBreak c then "-" else if isBreak d then "+" else ""
  let rec lines (atStart : Bool) : List Char → String
    | [] => ""
    | c :: rest =>
      if isBreak c then String.singleton c ++ lines true rest
      else
        (if atStart then String.ofList (List.replicate indent ' ') else "") ++
          String.singleton c ++ lines false rest
  let body := lines true cs
  -- the break behind the block is written by what follows
  let body := if chomp == "-" then body else (body.dropEnd 1).toString
  "|" ++ hint ++ chomp ++ "\n" ++ body

/-- A text at an indentation, as a key or as a value. -/
private def textScalar (indent : Nat) (isKey : Bool) (text : String) : String :=
  let styles := Styles.of text
  let asSingle : String :=
    if styles.single then singleQuoted indent text else doubleQuoted text
  let quotesWanted := oldBooleans.contains text
  if !quotesWanted && text.toList.contains '\n' then
    if isKey || !styles.block then doubleQuoted text else literalBlock indent text
  else if isKey && styles.severalLines then doubleQuoted text
  else if quotesWanted || isTyped text then asSingle
  else if styles.plain && !(isKey && text.isEmpty) then text
  else asSingle

/-- A key; long ones need a mark of their own. -/
private def isLongKey (key : String) : Bool := key.utf8ByteSize > 128 || key.toList.contains '\n'

/-! ## Collections -/

mutual

/-- Writes a value behind the mark that introduces it. `indent` is the column of the block around;
a list inside a mapping stays in that column. -/
private def write (indent : Nat) (inMap : Bool) : Document → String
  | .null => "null"
  | .bool true => "true"
  | .bool false => "false"
  | .int n => toString n
  | .float x => numeral x
  | .str s => textScalar (indent + 2) false s
  | .list items =>
    if items.isEmpty then "[]"
    else writeItems (if inMap then indent else indent + 2) true items
  | .map fields =>
    if fields.isEmpty then "\x7b\x7d" else writeEntries (indent + 2) true fields

/-- Writes the items of a list, each but the first on a line of its own. -/
private def writeItems (column : Nat) (first : Bool) : List Document → String
  | [] => ""
  | d :: rest =>
    (if first then "" else lineBreak column) ++ "- " ++ write column false d ++
      writeItems column false rest

/-- Writes the entries of a mapping, each but the first on a line of its own. -/
private def writeEntries (column : Nat) (first : Bool) : List (String × Document) → String
  | [] => ""
  | (key, d) :: rest =>
    let head :=
      if isLongKey key then "? " ++ textScalar (column + 2) false key ++ lineBreak column ++ ":"
      else textScalar (column + 2) true key ++ ":"
    let gap := match d with
      | .list (_ :: _) => lineBreak column
      | .map (_ :: _) => lineBreak (column + 2)
      | _ => " "
    (if first then "" else lineBreak column) ++ head ++ gap ++ write column true d ++
      writeEntries column false rest

end

/-- The YAML text of a document. -/
def render (d : Document) : String :=
  (match d with
    | .list (x :: rest) => writeItems 0 true (x :: rest)
    | .map (e :: rest) => writeEntries 0 true (e :: rest)
    | .str s => textScalar 2 false s
    | d => write 0 false d) ++ "\n"

end SoftwareCensus.Yaml
