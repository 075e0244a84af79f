import SoftwareCensus.Regex.Program

/-!
# Replacement texts

Two ways to write what replaces a match. In the *dollar* form, `$n`, `$name` and `${name}` stand
for groups and `$$` for a dollar sign. In the *backslash* form, `\n` and `\g<name>` stand for
groups and `\\` for a backslash. `dollarForm` turns the second into the first.
-/

namespace SoftwareCensus.Regex

open Numeral

/-! ## The dollar form -/

/-- A piece of a replacement. -/
inductive Piece where
  | literal (c : Char)
  /-- A group by number or name. -/
  | group (name : String)
  deriving DecidableEq, Inhabited

/-- Characters of a group name that is not in braces. -/
private def isNameChar (c : Char) : Bool := c.isAlphanum || c == '_'

/-- Reads a replacement in dollar form. A dollar sign that starts no group stands for itself. -/
def pieces (cs : List Char) : List Piece :=
  match cs with
  | [] => []
  | '$' :: '$' :: rest => .literal '$' :: pieces rest
  | '$' :: '{' :: rest =>
    let name := rest.takeWhile (· != '}')
    if name.length < rest.length then
      .group (String.ofList name) :: pieces (rest.drop (name.length + 1))
    else .literal '$' :: pieces ('{' :: rest)
  | '$' :: rest =>
    let name := rest.takeWhile isNameChar
    if name.isEmpty then .literal '$' :: pieces rest
    else .group (String.ofList name) :: pieces (rest.drop name.length)
  | c :: rest => .literal c :: pieces rest
termination_by cs.length
decreasing_by all_goals simp only [List.length_cons, List.length_drop]; all_goals omega

/-- Writes a replacement, given the text of each group by number or name; a group that is unknown
or took no part is empty. -/
def expandWith (group : String → String) (ps : List Piece) : String :=
  ps.foldl (fun out p => match p with
    | .literal c => out.push c
    | .group name => out ++ group name) ""

/-- The text that a group name stands for in a match. -/
def Matcher.groupText (m : Matcher) (found : Match) (name : String) : String :=
  let digits := match name.toList with
    | '+' :: rest => rest
    | cs => cs
  let number :=
    if digits.isEmpty || !digits.all Char.isDigit then m.groupNumber? name
    else some (ofDigits digits)
  (number.bind found.group?).getD ""

/-- Replaces every match. -/
def Matcher.replaceAll (m : Matcher) (text replacement : String) : String :=
  let ps := pieces replacement.toList
  let chars := text.toList.toArray
  let (out, last) := (m.findAll text).foldl
    (fun (out, last) found =>
      let before := String.ofList (chars.extract last found.start).toList
      (out ++ before ++ expandWith (m.groupText found) ps, found.stop))
    ("", 0)
  out ++ String.ofList (chars.extract last chars.size).toList

/-! ## The backslash form -/

/-- Turns a replacement in backslash form into dollar form. A backslash that starts no group and is
not doubled stands for itself. -/
def dollarForm (cs : List Char) : List Char :=
  match cs with
  | [] => []
  | '$' :: rest => '$' :: '$' :: dollarForm rest
  | '\\' :: '\\' :: rest => '\\' :: dollarForm rest
  | '\\' :: 'g' :: '<' :: rest =>
    let name := rest.takeWhile (· != '>')
    "$\x7b".toList ++ name ++ ['}'] ++ dollarForm (rest.drop (name.length + 1))
  | '\\' :: 'g' :: rest => '\\' :: 'g' :: dollarForm rest
  | '\\' :: rest =>
    let digits := rest.takeWhile Char.isDigit
    if digits.isEmpty then '\\' :: dollarForm rest
    else "$\x7b".toList ++ digits ++ ['}'] ++ dollarForm (rest.drop digits.length)
  | c :: rest => c :: dollarForm rest
termination_by cs.length
decreasing_by all_goals simp only [List.length_cons, List.length_drop]; all_goals omega

end SoftwareCensus.Regex
