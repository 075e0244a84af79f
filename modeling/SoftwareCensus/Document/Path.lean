import SoftwareCensus.Document.Basic
import SoftwareCensus.Numeral.Decimal
import SoftwareCensus.Text.Category

/-!
# Fact paths

Places inside a document, written like `process.children[0].pid` or `labels['a.b']`: keys of
mappings and positions in lists. `Document.at?` says what stands at a place, `setAt` writes there
and `removeAt` takes away what is there.
-/

namespace SoftwareCensus

open Numeral

/-- One step into a document. -/
inductive Step where
  | key (name : String)
  | index (i : Nat)
  deriving DecidableEq, Inhabited, Repr

/-- The form of a step in messages. -/
def Step.shown : Step → String
  | key name => "Key(" ++ Text.quoted name ++ ")"
  | index i => "Index(" ++ toString i ++ ")"

/-- The steps to a place in a document, from the outermost. -/
abbrev Path := List Step

namespace Path

/-! ## Reading -/

/-- Why a text is no path. -/
inductive Flaw where
  | emptySegment
  | unclosed
  | badIndex
  | emptyPath
  deriving DecidableEq, Inhabited, Repr

/-- The text of a flaw. -/
def Flaw.message : Flaw → String
  | emptySegment => "empty segment"
  | unclosed => "unclosed '['"
  | badIndex => "index must be a non-negative integer or a quoted key"
  | emptyPath => "empty path"

/-- What is said about a text that is no path. -/
def Flaw.messageFor (flaw : Flaw) (text : String) : String :=
  "invalid path '" ++ text ++ "': " ++ flaw.message

/-- The text between two quotes of one kind. -/
def unquoted? (cs : List Char) : Option (List Char) :=
  match cs with
  | q :: rest =>
    if q != '\'' && q != '"' then none
    else match rest.reverse with
      | r :: inner => if q == r then some inner.reverse else none
      | [] => none
  | [] => none

/-- The step that a text in brackets stands for. -/
def bracketStep? (inner : List Char) : Option Step :=
  let inner := Text.trimList inner
  match unquoted? inner with
  | some name => some (.key (String.ofList name))
  | none => ((readNat? inner).filter fun (n : Nat) => decide ((n : Int) ≤ maxUInt64)).map .index

/-- The steps read so far, with the name that is being read as the last one. Both are held in
reverse. -/
def closeName (steps : Path) (name : List Char) : Path :=
  if name.isEmpty then steps else .key (String.ofList name.reverse) :: steps

mutual

/-- Reads outside of brackets. The steps and the name read so far are held in reverse. -/
def readName (steps : Path) (name : List Char) : List Char → Except Flaw Path
  | [] => match closeName steps name with
    | [] => .error .emptyPath
    | steps => .ok steps.reverse
  | c :: rest =>
    if c == '.' then
      if name.isEmpty && steps.isEmpty then .error .emptySegment
      else readName (closeName steps name) [] rest
    else if c == '[' then readBracket (closeName steps name) [] rest
    else readName steps (c :: name) rest

/-- Reads inside brackets. The steps and the text read so far are held in reverse. -/
def readBracket (steps : Path) (inner : List Char) : List Char → Except Flaw Path
  | [] => .error .unclosed
  | c :: rest =>
    if c == ']' then match bracketStep? inner.reverse with
      | some step => readName (step :: steps) [] rest
      | none => .error .badIndex
    else readBracket steps (c :: inner) rest

end

/-- Reads a path. -/
def read (text : String) : Except Flaw Path := readName [] [] text.toList

/-- Why a value could not be written to a place. -/
inductive Obstacle where
  | emptyPath
  | outOfRange (index length : Nat)
  | cannotDescend (kind : String) (step : Step)
  | cannotSet (step : Step) (kind : String)
  deriving DecidableEq, Inhabited, Repr

/-- The text of an obstacle. -/
def Obstacle.message : Obstacle → String
  | emptyPath => "empty path"
  | outOfRange index length =>
    "index " ++ toString index ++ " out of range for list of " ++ toString length
  | cannotDescend kind step => "cannot descend into " ++ kind ++ " with " ++ step.shown
  | cannotSet step kind => "cannot set " ++ step.shown ++ " on " ++ kind

end Path

namespace Document

/-! ## Looking -/

/-- What one step leads to. -/
def child? (d : Document) (step : Step) : Option Document :=
  match step, d with
  | .key name, map fields => Fields.get? fields name
  | .index i, list items => items[i]?
  | _, _ => none

/-- What stands at a place. -/
def at? (d : Document) (path : Path) : Option Document :=
  match path with
  | [] => some d
  | step :: rest => (d.child? step).bind (·.at? rest)

/-! ## Writing -/

/-- What a write leaves: the document, and why the value is not in it. -/
structure Written where
  document : Document
  obstacle : Option Path.Obstacle := none
  deriving Inhabited

/-- Writes a value to the place that one step leads to; behind the end of a list it is appended. -/
def setChild (d : Document) (step : Step) (value : Document) : Written :=
  match step, d with
  | .key name, map fields => ⟨map (Fields.insert fields name value), none⟩
  | .index i, list items =>
    if i < items.length then ⟨list (items.set i value), none⟩
    else if i == items.length then ⟨list (items ++ [value]), none⟩
    else ⟨d, some (.outOfRange i items.length)⟩
  | _, _ => ⟨d, some (.cannotSet step d.kind)⟩

/-- Writes a value to a place. Keys that are missing on the way are bound to mappings, which stay
even if the place cannot be reached. -/
def setAt (d : Document) (path : Path) (value : Document) : Written :=
  match path with
  | [] => ⟨d, some .emptyPath⟩
  | [step] => d.setChild step value
  | step :: next :: rest =>
    match step, d with
    | .key name, map fields =>
      let w := setAt ((Fields.get? fields name).getD empty) (next :: rest) value
      ⟨map (Fields.insert fields name w.document), w.obstacle⟩
    | .index i, list items =>
      match items[i]? with
      | some item =>
        let w := setAt item (next :: rest) value
        ⟨list (items.set i w.document), w.obstacle⟩
      | none => ⟨d, some (.outOfRange i items.length)⟩
    | _, _ => ⟨d, some (.cannotDescend d.kind step)⟩

/-! ## Removing -/

/-- Removes what stands at a place; `none` if nothing is there. -/
def removeAt? (d : Document) (path : Path) : Option Document :=
  match path with
  | [] => none
  | [step] =>
    match step, d with
    | .key name, map fields =>
      if Fields.contains fields name then some (map (Fields.erase fields name)) else none
    | .index i, list items => if i < items.length then some (list (items.eraseIdx i)) else none
    | _, _ => none
  | step :: next :: rest =>
    match step, d with
    | .key name, map fields =>
      (Fields.get? fields name).bind fun inner =>
        (removeAt? inner (next :: rest)).map fun inner => map (Fields.insert fields name inner)
    | .index i, list items =>
      items[i]?.bind fun inner =>
        (removeAt? inner (next :: rest)).map fun inner => list (items.set i inner)
    | _, _ => none

end Document

/-! ## Names -/

/-- Whether a text is a name for a variable: a letter or underscore, then letters, numbers and
underscores. -/
def isIdentifier (s : String) : Bool :=
  match s.toList with
  | [] => false
  | c :: rest =>
    (Text.isLetter c || c == '_') && rest.all fun c => Text.isAlphanumeric c || c == '_'

end SoftwareCensus
