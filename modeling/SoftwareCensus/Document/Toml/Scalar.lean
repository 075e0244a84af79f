import SoftwareCensus.Document.Source
import SoftwareCensus.Numeral.Binary64
import SoftwareCensus.Text.Pieces

/-!
# Scalars of TOML

Texts between quotes, numbers, and dates and times. A reader returns what it read and what follows.
A date or time is a mapping with one entry, its text.
-/

namespace SoftwareCensus.Toml

open Numeral

/-! ## Characters -/

/-- Whether a character may stand in a comment or a text. -/
def isPlain (c : Char) : Bool := c == '\t' || (0x20 ≤ c.toNat && c.toNat != 0x7f)

/-- Whether a character separates what stands on one line. -/
def isSpace (c : Char) : Bool := c == ' ' || c == '\t'

/-- Reads the end of a line. -/
def newline? : List Char → Option (List Char)
  | '\n' :: rest => some rest
  | '\r' :: '\n' :: rest => some rest
  | _ => none

/-! ## Texts -/

/-- The character of so many hexadecimal digits. -/
def hexChar? (count : Nat) (cs : List Char) : Option (Char × List Char) :=
  if cs.length < count then none
  else
    (ofDigitsBase? 16 (cs.take count)).bind fun n =>
      if n < 0xd800 || (0xdfff < n && n < 0x110000) then some (Char.ofNat n, cs.drop count)
      else none

/-- The character of an escape, behind its backslash. -/
def escape? : List Char → Option (Char × List Char)
  | 'b' :: rest => some ('\x08', rest)
  | 't' :: rest => some ('\t', rest)
  | 'n' :: rest => some ('\n', rest)
  | 'f' :: rest => some ('\x0c', rest)
  | 'r' :: rest => some ('\r', rest)
  | '"' :: rest => some ('"', rest)
  | '\\' :: rest => some ('\\', rest)
  | 'u' :: rest => hexChar? 4 rest
  | 'U' :: rest => hexChar? 8 rest
  | _ => none

/-- Reads a text on one line up to its quote. The first argument bounds the number of characters;
what was read is held in reverse. -/
def readLine (escapes : Bool) (quote : Char) : Nat → List Char → List Char →
    Option (List Char × List Char)
  | 0, _, _ => none
  | bound + 1, acc, cs => match cs with
    | [] => none
    | c :: rest =>
      if c == quote then some (acc.reverse, rest)
      else if escapes && c == '\\' then
        (escape? rest).bind fun (d, rest) => readLine escapes quote bound (d :: acc) rest
      else if isPlain c then readLine escapes quote bound (c :: acc) rest
      else none

/-- How many quotes a text begins with. -/
def quotesAhead (quote : Char) (cs : List Char) : Nat := (cs.takeWhile (· == quote)).length

/-- Drops blanks and line ends. -/
def skipLines : List Char → List Char
  | '\r' :: '\n' :: rest => skipLines rest
  | c :: rest => if isSpace c || c == '\n' then skipLines rest else c :: rest
  | [] => []

/-- What follows a backslash at the end of a line, with the blanks behind it. -/
def foldedLine? (cs : List Char) : Option (List Char) :=
  (newline? (cs.dropWhile isSpace)).map skipLines

/-- Reads a text over several lines up to three quotes; up to two quotes before them belong to the
text. The first argument bounds the number of characters; what was read is held in reverse. -/
def readLines (escapes : Bool) (quote : Char) : Nat → List Char → List Char →
    Option (List Char × List Char)
  | 0, _, _ => none
  | bound + 1, acc, cs =>
    match newline? cs with
    | some rest => readLines escapes quote bound ('\n' :: acc) rest
    | none => match cs with
      | [] => none
      | c :: rest =>
        if c == quote then
          let count := quotesAhead quote cs
          if count < 3 then readLines escapes quote bound (List.replicate count quote ++ acc)
            (cs.drop count)
          else
            let own := min (count - 3) 2
            some ((List.replicate own quote ++ acc).reverse, cs.drop (own + 3))
        else if escapes && c == '\\' then
          match foldedLine? rest with
          | some rest => readLines escapes quote bound acc rest
          | none => (escape? rest).bind fun (d, rest) =>
            readLines escapes quote bound (d :: acc) rest
        else if isPlain c then readLines escapes quote bound (c :: acc) rest
        else none

/-- Reads a text. -/
def readText? (cs : List Char) : Option (String × List Char) :=
  let asText (r : List Char × List Char) : String × List Char := (String.ofList r.1, r.2)
  match cs with
  | q :: rest =>
    if q != '"' && q != '\'' then none
    else match rest with
      | r :: s :: inner =>
        if r == q && s == q then
          let inner := (newline? inner).getD inner
          (readLines (q == '"') q (inner.length + 1) [] inner).map asText
        else (readLine (q == '"') q (rest.length + 1) [] rest).map asText
      | _ => (readLine (q == '"') q (rest.length + 1) [] rest).map asText
  | [] => none

/-! ## Numbers -/

/-- Reads digits with single underscores between them: the digits, and what follows. -/
def digitRun (isDigit : Char → Bool) : List Char → List Char × List Char
  | c :: '_' :: d :: rest =>
    if isDigit c && isDigit d then
      let (ds, rest) := digitRun isDigit (d :: rest)
      (c :: ds, rest)
    else if isDigit c then ([c], '_' :: d :: rest)
    else ([], c :: '_' :: d :: rest)
  | c :: rest =>
    if isDigit c then
      let (ds, rest) := digitRun isDigit rest
      (c :: ds, rest)
    else ([], c :: rest)
  | [] => ([], [])

/-- Reads the whole part of a decimal number, which has no needless zero in front. -/
def wholePart? (cs : List Char) : Option (List Char × List Char) :=
  match cs with
  | '0' :: rest => some (['0'], rest)
  | _ => match digitRun Char.isDigit cs with
    | ([], _) => none
    | r => some r

/-- Reads the digits behind a point. -/
def fraction? : List Char → Option (List Char × List Char)
  | '.' :: rest => match digitRun Char.isDigit rest with
    | ([], _) => none
    | (ds, rest) => some ('.' :: ds, rest)
  | cs => some ([], cs)

/-- Reads an exponent. -/
def exponent? : List Char → Option (List Char × List Char)
  | c :: rest =>
    if c != 'e' && c != 'E' then some ([], c :: rest)
    else
      let (sign, rest) := match rest with
        | '+' :: rest => (['+'], rest)
        | '-' :: rest => (['-'], rest)
        | rest => ([], rest)
      match digitRun Char.isDigit rest with
      | ([], _) => none
      | (ds, rest) => some ('e' :: sign ++ ds, rest)
  | [] => some ([], [])

/-- The integer of a sign and a magnitude, if it fits into 64 bits. -/
def signedInt? (negative : Bool) (magnitude : Nat) : Option Source :=
  let n : Int := if negative then -(magnitude : Int) else magnitude
  if minInt64 ≤ n && n ≤ maxInt64 then some (.int n) else none

/-- Reads an integer with a radix, behind the mark of the radix. -/
def readRadix? (base : Nat) (cs : List Char) : Option (Source × List Char) :=
  let (ds, rest) := digitRun (fun c => (hexValue? c).any (· < base)) cs
  if ds.isEmpty then none
  else ((ofDigitsBase? base ds).bind (signedInt? false)).map fun s => (s, rest)

/-- Reads a decimal number behind its sign. -/
def readDecimal? (negative : Bool) (cs : List Char) : Option (Source × List Char) := do
  let (whole, cs) ← wholePart? cs
  let (fraction, cs) ← fraction? cs
  let (exponent, cs) ← exponent? cs
  if fraction.isEmpty && exponent.isEmpty then
    return (← signedInt? negative (ofDigits whole), cs)
  let sign := if negative then ['-'] else []
  let x ← readDouble? (sign ++ whole ++ fraction ++ exponent)
  if x.isFinite || negative then return (.float x, cs) else none

/-- Reads a number. -/
def readNumber? (cs : List Char) : Option (Source × List Char) :=
  match cs with
  | '0' :: 'x' :: rest => readRadix? 16 rest
  | '0' :: 'o' :: rest => readRadix? 8 rest
  | '0' :: 'b' :: rest => readRadix? 2 rest
  | _ =>
    let (negative, body) := match cs with
      | '-' :: rest => (true, rest)
      | '+' :: rest => (false, rest)
      | cs => (false, cs)
    let infinity : Float := 1.0 / 0.0
    match body with
    | 'i' :: 'n' :: 'f' :: rest =>
      some (.float (.ofFloat (if negative then -infinity else infinity)), rest)
    | 'n' :: 'a' :: 'n' :: rest => some (.float (.ofFloat (0.0 / 0.0)), rest)
    | body => readDecimal? negative body

/-! ## Dates and times -/

/-- The key of the entry that holds the text of a date or time. -/
def datetimeKey : String := "$__toml_private_datetime"

/-- Reads a number of so many digits within bounds. -/
def digits? (count least most : Nat) (cs : List Char) : Option (List Char × List Char) :=
  let ds := cs.take count
  if ds.length == count && ds.all Char.isDigit && least ≤ ofDigits ds && ofDigits ds ≤ most then
    some (ds, cs.drop count)
  else none

/-- Reads a character. -/
def char? (c : Char) : List Char → Option (List Char)
  | d :: rest => if c == d then some rest else none
  | [] => none

/-- How many days a month has. -/
def daysOf (year month : Nat) : Nat :=
  let isLeap := year % 4 == 0 && (year % 100 != 0 || year % 400 == 0)
  if month == 2 then (if isLeap then 29 else 28)
  else if [4, 6, 9, 11].contains month then 30
  else 31

/-- Reads a date. -/
def readDate? (cs : List Char) : Option (String × List Char) := do
  let (year, cs) ← digits? 4 0 9999 cs
  let cs ← char? '-' cs
  let (month, cs) ← digits? 2 1 12 cs
  let cs ← char? '-' cs
  let (day, cs) ← digits? 2 1 (daysOf (ofDigits year) (ofDigits month)) cs
  return (String.ofList (year ++ '-' :: month ++ '-' :: day), cs)

/-- Reads a fraction of a second: nine digits of it count, and zeros at its end do not show. -/
def readSubsecond? : List Char → Option (String × List Char)
  | '.' :: rest =>
    let (ds, rest) := rest.span Char.isDigit
    if ds.isEmpty then none
    else
      let kept := ((ds.take 9).reverse.dropWhile (· == '0')).reverse
      some (if kept.isEmpty then "" else "." ++ String.ofList kept, rest)
  | cs => some ("", cs)

/-- Reads a time. -/
def readTime? (cs : List Char) : Option (String × List Char) := do
  let (hour, cs) ← digits? 2 0 23 cs
  let cs ← char? ':' cs
  let (minute, cs) ← digits? 2 0 59 cs
  let cs ← char? ':' cs
  let (second, cs) ← digits? 2 0 60 cs
  let (fraction, cs) ← readSubsecond? cs
  return (String.ofList (hour ++ ':' :: minute ++ ':' :: second) ++ fraction, cs)

/-- Reads an offset from universal time. -/
def readOffset? : List Char → Option (String × List Char)
  | c :: rest =>
    if c == 'Z' || c == 'z' then some ("Z", rest)
    else if c != '+' && c != '-' then none
    else do
      let (hours, rest) ← digits? 2 0 23 rest
      let rest ← char? ':' rest
      let (minutes, rest) ← digits? 2 0 59 rest
      let sign := if ofDigits hours == 0 && ofDigits minutes == 0 then '+' else c
      return (String.ofList (sign :: hours ++ ':' :: minutes), rest)
  | [] => none

/-- Reads a date with or without a time, or a time. -/
def readDatetime? (cs : List Char) : Option (String × List Char) :=
  match readDate? cs with
  | none => readTime? cs
  | some (date, rest) =>
    let time? := match rest with
      | c :: after => if c == 'T' || c == 't' || c == ' ' then readTime? after else none
      | [] => none
    match time? with
    | none => some (date, rest)
    | some (time, rest) => match readOffset? rest with
      | some (offset, rest) => some (date ++ "T" ++ time ++ offset, rest)
      | none => some (date ++ "T" ++ time, rest)

/-- Reads a number, a date or a time. -/
def readNumeric? (cs : List Char) : Option (Source × List Char) :=
  match readDatetime? cs with
  | some (text, rest) => some (.map [(.str datetimeKey, .str text)], rest)
  | none => readNumber? cs

end SoftwareCensus.Toml
