import SoftwareCensus.Numeral.Decimal
import SoftwareCensus.Text.Category

/-!
# Timestamps

A moment as it is written on a clock somewhere, with the distance of that clock from universal
time.
-/

namespace SoftwareCensus

open Numeral

/-- A date and time with an offset from universal time, in seconds. -/
structure Timestamp where
  year : Int
  month : Nat
  day : Nat
  hour : Nat
  minute : Nat
  second : Nat
  offset : Int
  deriving DecidableEq, Inhabited, Repr

namespace Timestamp

/-! ## Reading -/

/-- Drops blanks. -/
private def skipBlanks (cs : List Char) : List Char := cs.dropWhile Text.isBlank

/-- Reads a number of at most so many digits. -/
private def number (most : Nat) (cs : List Char) : Option (Nat × List Char) :=
  let ds := (cs.take most).takeWhile Char.isDigit
  if ds.isEmpty then none else some (ofDigits ds, cs.drop ds.length)

/-- Reads a mark, with blanks before and behind it. -/
private def mark (c : Char) (cs : List Char) : Option (List Char) :=
  match skipBlanks cs with
  | d :: rest => if c == d then some (skipBlanks rest) else none
  | [] => none

/-- Reads a year. -/
private def readYear (cs : List Char) : Option (Int × List Char) :=
  match skipBlanks cs with
  | '-' :: rest => (number rest.length rest).map fun (n, rest) => (-(n : Int), rest)
  | '+' :: rest => (number rest.length rest).map fun (n, rest) => ((n : Int), rest)
  | cs => (number 4 cs).map fun (n, rest) => ((n : Int), rest)

/-- Drops a fraction of a second. -/
private def skipFraction : List Char → Option (List Char)
  | '.' :: rest =>
    match rest.span Char.isDigit with
    | ([], _) => none
    | (_, rest) => some rest
  | cs => some cs

/-- Reads two digits. -/
private def twoDigits : List Char → Option (Nat × List Char)
  | a :: b :: rest =>
    if a.isDigit && b.isDigit then some (ofDigits [a, b], rest) else none
  | _ => none

/-- Reads an offset. -/
private def readOffset (cs : List Char) : Option (Int × List Char) := do
  match cs with
  | 'Z' :: rest | 'z' :: rest => return (0, rest)
  | u :: t :: c :: rest =>
    if [u, t, c].map Char.toUpper == ['U', 'T', 'C'] then return (0, rest)
    let negative ← match u with
      | '+' => some false
      | '-' | '\u2212' => some true
      | _ => none
    let (hours, rest) ← twoDigits (t :: c :: rest)
    let (minutes, rest) ← twoDigits (rest.dropWhile fun c => c == ':' || Text.isBlank c)
    if minutes > 59 || hours > 23 then failure
    let seconds : Int := hours * 3600 + minutes * 60
    return (if negative then -seconds else seconds, rest)
  | _ => none

/-- Whether a year has a leap day. -/
def isLeap (year : Int) : Bool := year % 4 == 0 && (year % 100 != 0 || year % 400 == 0)

/-- The days of a month. -/
def daysOf (year : Int) (month : Nat) : Nat :=
  if month == 2 then (if isLeap year then 29 else 28)
  else if [4, 6, 9, 11].contains month then 30
  else 31

/-- The years that a date can have. -/
private def maxYear : Int := 262142

/-- Reads a date and time with an offset. -/
def read? (s : String) : Option Timestamp := do
  let (year, cs) ← readYear s.toList
  let cs ← mark '-' cs
  let (month, cs) ← number 2 cs
  let cs ← mark '-' cs
  let (day, cs) ← number 2 cs
  let cs ← match cs with
    | 'T' :: rest | 't' :: rest | ' ' :: rest => some (skipBlanks rest)
    | _ => none
  let (hour, cs) ← number 2 cs
  let cs ← mark ':' cs
  let (minute, cs) ← number 2 cs
  let cs ← mark ':' cs
  let (second, cs) ← number 2 cs
  let cs ← skipFraction cs
  let (offset, rest) ← readOffset (skipBlanks cs)
  if !(skipBlanks rest).isEmpty then failure
  if year.natAbs > maxYear.natAbs || month == 0 || month > 12 || day == 0 ||
      day > daysOf year month || hour > 23 || minute > 59 || second > 60 then failure
  return { year, month, day, hour, minute, second, offset }

/-! ## Clocks -/

/-- The date that is so many days after the first of January 1970: its year, month and day. Years
are counted from March, so that a leap day comes last. -/
def dateOf (days : Int) : Int × Nat × Nat :=
  let days := days + 719468
  let era := days.fdiv 146097
  let dayOfEra := (days - era * 146097).toNat
  let yearOfEra := (dayOfEra - dayOfEra / 1460 + dayOfEra / 36524 - dayOfEra / 146096) / 365
  let dayOfYear := dayOfEra - (365 * yearOfEra + yearOfEra / 4 - yearOfEra / 100)
  let monthFromMarch := (5 * dayOfYear + 2) / 153
  let day := dayOfYear - (153 * monthFromMarch + 2) / 5 + 1
  let month := if monthFromMarch < 10 then monthFromMarch + 3 else monthFromMarch - 9
  let year : Int := era * 400 + yearOfEra
  (if month ≤ 2 then year + 1 else year, month, day)

/-- The moment that is so many seconds after the start of 1970, on a clock of universal time. -/
def ofSeconds (seconds : Int) : Timestamp :=
  let days := seconds.fdiv 86400
  let rest := (seconds - days * 86400).toNat
  let (year, month, day) := dateOf days
  { year, month, day, hour := rest / 3600, minute := rest / 60 % 60, second := rest % 60
    offset := 0 }

/-! ## Writing -/

/-- A number with zeros in front. -/
private def padded (width n : Nat) : String :=
  let ds := natDigits n
  String.ofList (List.replicate (width - ds.length) '0' ++ ds)

/-- A year of four digits; years outside of that have a sign. -/
private def yearText (year : Int) : String :=
  if 0 ≤ year && year ≤ 9999 then padded 4 year.toNat
  else (if year < 0 then "-" else "+") ++ padded 4 year.natAbs

/-- The date and the time, each as a number. -/
def digits (t : Timestamp) : String × String :=
  (yearText t.year ++ padded 2 t.month ++ padded 2 t.day,
    padded 2 t.hour ++ padded 2 t.minute ++ padded 2 t.second)

/-- The form of logs and snapshots, for a moment on a clock of universal time and the microseconds
that have passed since. -/
def universalForm (t : Timestamp) (micros : Nat) : String :=
  yearText t.year ++ "-" ++ padded 2 t.month ++ "-" ++ padded 2 t.day ++ "T" ++ padded 2 t.hour ++
    ":" ++ padded 2 t.minute ++ ":" ++ padded 2 t.second ++ "." ++ padded 6 micros ++ "Z"

/-- The form in which results carry the time. The offset is cut to whole hours. -/
def discoveryForm (t : Timestamp) : String :=
  let hours := t.offset.natAbs / 3600
  let sign := if t.offset < 0 && hours != 0 then "-" else "+"
  yearText t.year ++ "-" ++ padded 2 t.month ++ "-" ++ padded 2 t.day ++ "T" ++ padded 2 t.hour ++
    ":" ++ padded 2 t.minute ++ ":" ++ padded 2 t.second ++ sign ++ padded 2 hours ++ ":00"

end Timestamp

end SoftwareCensus
