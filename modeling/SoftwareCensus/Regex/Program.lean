import SoftwareCensus.Regex.Reader

/-!
# Matching programs

A pattern is turned into a list of instructions in which every choice names the branch to prefer.
The matcher explores them depth first, preferred branches first, and never visits a pair of
instruction and position twice: a pair that failed once fails always. The number of pairs bounds
the number of steps, so a search takes time proportional to pattern and text.
-/

namespace SoftwareCensus.Regex

open Text

/-- One instruction. -/
inductive Instr where
  /-- Consume a character of the set. -/
  | chars (set : CharSet)
  /-- Go on if a condition holds here. -/
  | look (condition : Look)
  /-- Note the position in a slot. -/
  | save (slot : Nat)
  /-- Try the first target, then the second. -/
  | split (preferred other : Nat)
  | jump (target : Nat)
  | done
  deriving Inhabited

/-! ## Assembling -/

/-- A choice between two targets; a lazy one prefers the second. -/
private def choice (greedy : Bool) (inner outer : Nat) : Instr :=
  if greedy then .split inner outer else .split outer inner

/-- Puts an instruction at a place reserved before. -/
private def patch (code : Array Instr) (at_ : Nat) (i : Instr) : Array Instr :=
  code.setIfInBounds at_ i

/-- Appends a piece of code a number of times. -/
private def times (piece : Array Instr → Array Instr) : Nat → Array Instr → Array Instr
  | 0, code => code
  | n + 1, code => times piece n (piece code)

/-- Appends a piece of code that repeats without an upper bound, at least once. -/
private def onceOrMore (piece : Array Instr → Array Instr) (greedy : Bool)
    (code : Array Instr) : Array Instr :=
  let start := code.size
  let code := piece code
  code.push (choice greedy start (code.size + 1))

/-- Appends a piece of code up to a number of times. Each copy is reached through a choice whose
other branch leaves; the places of the choices are filled in at the end. -/
private def upTo (piece : Array Instr → Array Instr) (greedy : Bool) :
    Nat → List Nat → Array Instr → Array Instr
  | 0, places, code =>
    places.foldl (fun code place => patch code place (choice greedy (place + 1) code.size)) code
  | n + 1, places, code => upTo piece greedy n (code.size :: places) (piece (code.push .done))

mutual

/-- Appends the code of an expression. -/
def assemble : Expr → Array Instr → Array Instr
  | .empty, code => code
  | .chars s, code => code.push (.chars s)
  | .look l, code => code.push (.look l)
  | .cat items, code => assembleAll items code
  | .alt choices, code => assembleChoices choices [] code
  | .group none body, code => assemble body code
  | .group (some n) body, code =>
    (assemble body (code.push (.save (2 * n)))).push (.save (2 * n + 1))
  | .rep body least most greedy, code =>
    let piece := fun code => assemble body code
    match most with
    | some most => upTo piece greedy (most - least) [] (times piece least code)
    | none =>
      if least == 0 then
        let start := code.size
        let code := code.push .done
        if body.canBeEmpty then
          let code := onceOrMore piece greedy code
          patch code start (choice greedy (start + 1) code.size)
        else
          let code := (piece code).push (.jump start)
          patch code start (choice greedy (start + 1) code.size)
      else onceOrMore piece greedy (times piece (least - 1) code)

/-- Appends the code of expressions one after another. -/
def assembleAll : List Expr → Array Instr → Array Instr
  | [], code => code
  | e :: rest, code => assembleAll rest (assemble e code)

/-- Appends the code of alternatives. `exits` are the places that jump behind the last one. -/
def assembleChoices : List Expr → List Nat → Array Instr → Array Instr
  | [], exits, code => exits.foldl (fun code place => patch code place (.jump code.size)) code
  | [e], exits, code =>
    let code := assemble e code
    exits.foldl (fun code place => patch code place (.jump code.size)) code
  | e :: rest, exits, code =>
    let start := code.size
    let code := assemble e (code.push .done)
    let exit := code.size
    let code := patch (code.push .done) start (.split (start + 1) (exit + 1))
    assembleChoices rest (exit :: exits) code

end

/-- A pattern ready for matching. -/
structure Matcher where
  code : Array Instr
  groups : Nat
  names : List (String × Nat)

/-- How many instructions a program may have. -/
def maxInstructions : Nat := 400000

/-- Prepares a pattern for matching. -/
def Matcher.compile (modes : Modes) (source : String) : Except Fault Matcher := do
  let p ← Pattern.read modes source
  if p.expr.cost > maxInstructions then .error ⟨.tooLarge, ⟨0, 0⟩, none⟩
  else .ok ⟨(assemble p.expr #[.save 0] |>.push (.save 1)).push .done, p.groups, p.names⟩

/-! ## Running -/

/-- The positions noted so far, by slot. -/
abbrev Slots := Array (Option Nat)

/-- A branch still to be tried. -/
structure Branch where
  instr : Nat
  pos : Nat
  slots : Slots

/-- Whether the character before or at a position belongs to a word. -/
private def wordAt (ascii : Bool) (c : Option Char) : Bool :=
  match c with
  | none => false
  | some c => isWordChar c && (!ascii || c.toNat < 0x80)

/-- Whether a condition holds at a position. -/
def Look.holds (text : Array Char) (pos : Nat) (l : Look) : Bool :=
  let before := if pos == 0 then none else text[pos - 1]?
  let after := text[pos]?
  match l with
  | .startText => pos == 0
  | .endText => pos == text.size
  | .startLine => before.all (· == '\n')
  | .endLine => after.all (· == '\n')
  | .startLineCrlf => match before with
    | none => true
    | some '\n' => true
    | some '\r' => after != some '\n'
    | some _ => false
  | .endLineCrlf => match after with
    | none => true
    | some '\r' => true
    | some '\n' => before != some '\r'
    | some _ => false
  | .wordBoundary a => wordAt a before != wordAt a after
  | .notWordBoundary a => wordAt a before == wordAt a after
  | .wordStart a => !wordAt a before && wordAt a after
  | .wordEnd a => wordAt a before && !wordAt a after
  | .wordStartHalf a => !wordAt a before
  | .wordEndHalf a => !wordAt a after

/-- The branches that an instruction leads to, the preferred one first; `none` when it is the end
of a match. -/
private def Branch.next (code : Array Instr) (text : Array Char) (b : Branch) :
    Option (List Branch) :=
  match code[b.instr]? with
  | none => some []
  | some i =>
    match i with
    | .done => none
    | .chars set =>
      match text[b.pos]? with
      | some c => if set.contains c then some [⟨b.instr + 1, b.pos + 1, b.slots⟩] else some []
      | none => some []
    | .look l => some (if l.holds text b.pos then [{ b with instr := b.instr + 1 }] else [])
    | .save slot => some [⟨b.instr + 1, b.pos, b.slots.setIfInBounds slot (some b.pos)⟩]
    | .split x y => some [{ b with instr := x }, { b with instr := y }]
    | .jump x => some [{ b with instr := x }]

/-- Explores branches depth first. `visited` marks the pairs of instruction and position already
explored. -/
private def explore (code : Array Instr) (text : Array Char) :
    Nat → List Branch → ByteArray → Option Slots × ByteArray
  | 0, _, visited => (none, visited)
  | _, [], visited => (none, visited)
  | steps + 1, b :: rest, visited =>
    let key := b.pos * code.size + b.instr
    if visited.data.getD key 1 != 0 then explore code text steps rest visited
    else
      let visited := visited.set! key 1
      match b.next code text with
      | none => (some b.slots, visited)
      | some branches => explore code text steps (branches ++ rest) visited

/-- Tries the positions from one on, as many as given. -/
private def searchFrom (m : Matcher) (text : Array Char) (steps : Nat) :
    Nat → Nat → ByteArray → Option Slots
  | 0, _, _ => none
  | tries + 1, pos, visited =>
    let slots : Slots := Array.replicate (2 * (m.groups + 1)) none
    match explore m.code text steps [⟨0, pos, slots⟩] visited with
    | (some slots, _) => some slots
    | (none, visited) => searchFrom m text steps tries (pos + 1) visited

/-- The captures of the leftmost match at or behind a position. -/
def Matcher.slots? (m : Matcher) (text : Array Char) (start : Nat) : Option Slots :=
  if start > text.size then none
  else
    let pairs := m.code.size * (text.size + 1)
    searchFrom m text (2 * pairs + 2) (text.size + 1 - start) start
      ⟨Array.replicate pairs 0⟩

/-! ## Matches -/

/-- A match: the text it was found in and the ends of every group. -/
structure Match where
  text : Array Char
  slots : Slots

namespace Match

/-- The ends of a group that took part. -/
def span? (m : Match) (group : Nat) : Option (Nat × Nat) :=
  match m.slots[2 * group]?, m.slots[2 * group + 1]? with
  | some (some a), some (some b) => some (a, b)
  | _, _ => none

/-- The text of a group that took part. -/
def group? (m : Match) (group : Nat) : Option String :=
  (m.span? group).map fun (a, b) => String.ofList (m.text.extract a b).toList

/-- Where the match begins. -/
def start (m : Match) : Nat := ((m.span? 0).map (·.1)).getD 0

/-- Where the match ends. -/
def stop (m : Match) : Nat := ((m.span? 0).map (·.2)).getD 0

/-- The text of the whole match. -/
def whole (m : Match) : String := (m.group? 0).getD ""

end Match

namespace Matcher

/-- The leftmost match. -/
def find? (m : Matcher) (text : String) : Option Match :=
  let chars := text.toList.toArray
  (m.slots? chars 0).map fun s => ⟨chars, s⟩

/-- Whether the text holds a match. -/
def isMatch (m : Matcher) (text : String) : Bool := (m.find? text).isSome

/-- Collects matches that do not overlap. After an empty match that touches the previous one, the
search moves on by a character. -/
private def collect (m : Matcher) (text : Array Char) :
    Nat → Nat → Option Nat → List Match → List Match
  | 0, _, _, acc => acc.reverse
  | bound + 1, start, lastEnd, acc =>
    match m.slots? text start with
    | none => acc.reverse
    | some s =>
      let found : Match := ⟨text, s⟩
      let found? :=
        if found.start == found.stop && lastEnd == some found.stop then
          (m.slots? text (start + 1)).map fun s => (⟨text, s⟩ : Match)
        else some found
      match found? with
      | none => acc.reverse
      | some found => collect m text bound found.stop (some found.stop) (found :: acc)

/-- All matches from left to right. -/
def findAll (m : Matcher) (text : String) : List Match :=
  let chars := text.toList.toArray
  collect m chars (chars.size + 2) 0 none []

/-- The number of a named group. -/
def groupNumber? (m : Matcher) (name : String) : Option Nat :=
  (m.names.find? (·.1 == name)).map (·.2)

end Matcher

end SoftwareCensus.Regex
