/-!
# Places in a YAML text

The characters that are left with their place, the line breaks that YAML knows, and the runs of
blanks and breaks that scalars fold.
-/

namespace SoftwareCensus.Yaml

/-- Whether a character breaks a line. -/
def isBreak (c : Char) : Bool :=
  c == '\n' || c == '\r' || c.toNat == 0x85 || c.toNat == 0x2028 || c.toNat == 0x2029

/-- Whether a character is a space or a tab. -/
def isBlank (c : Char) : Bool := c == ' ' || c == '\t'

/-- Whether a list begins with a blank or a break, or is empty. -/
def blankNext : List Char → Bool
  | [] => true
  | c :: _ => isBlank c || isBreak c

/-- Whether a character may occur in a YAML text. -/
def isAllowed (c : Char) : Bool :=
  let n := c.toNat
  n == 0x9 || n == 0xa || n == 0xd || (0x20 ≤ n && n ≤ 0x7e) || n == 0x85 ||
    (0xa0 ≤ n && n ≤ 0xd7ff) || (0xe000 ≤ n && n ≤ 0xfffd) || (0x10000 ≤ n && n ≤ 0x10ffff)

/-- A place in a text. -/
structure Cursor where
  rest : List Char
  index : Nat
  line : Nat
  column : Nat

namespace Cursor

/-- Moves behind a number of characters of the same line. -/
def skip (c : Cursor) (n : Nat) : Cursor :=
  { c with rest := c.rest.drop n, index := c.index + n, column := c.column + n }

/-- Moves behind a line break; a carriage return and a line feed are one. -/
def skipBreak (c : Cursor) : Cursor :=
  match c.rest with
  | '\r' :: '\n' :: rest => ⟨rest, c.index + 2, c.line + 1, 0⟩
  | _ :: rest => ⟨rest, c.index + 1, c.line + 1, 0⟩
  | [] => c

/-- The character that a line break is read as: two separators stay, all others become a line
feed. -/
def breakChar (c : Cursor) : Char :=
  match c.rest with
  | x :: _ => if x.toNat == 0x2028 || x.toNat == 0x2029 then x else '\n'
  | [] => '\n'

/-- Whether a line break is next. -/
def atBreak (c : Cursor) : Bool :=
  match c.rest with
  | x :: _ => isBreak x
  | [] => false

/-- Whether a document mark stands at the beginning of the line here. -/
def atDocumentMark (c : Cursor) : Bool :=
  c.column == 0 &&
    match c.rest with
    | '-' :: '-' :: '-' :: rest => blankNext rest
    | '.' :: '.' :: '.' :: rest => blankNext rest
    | _ => false

/-- Skips to the end of the line. -/
def skipLine (c : Cursor) : Cursor := c.skip (c.rest.takeWhile fun x => !isBreak x).length

end Cursor

/-! ## Folding -/

/-- Blanks and line breaks between two pieces of a scalar: the blanks before the first break in
reverse; if there is a break, the first one and the following ones in reverse. -/
structure Gap where
  blanks : List Char
  breaks : Option (List Char × List Char)

namespace Gap

/-- Nothing. -/
def empty : Gap := ⟨[], none⟩

/-- What the gap contributes to the scalar: a single break folds into a space, of several breaks
the first one is dropped. -/
def fold (g : Gap) : List Char :=
  match g.breaks with
  | none => g.blanks.reverse
  | some (['\n'], []) => [' ']
  | some (['\n'], more) => more.reverse
  | some (first, more) => first ++ more.reverse

/-- Reads blanks and breaks. A tab to the left of `tabLimit` at the beginning of a line is refused.
The first argument bounds the number of characters. -/
def read (tabLimit : Option Nat) : Nat → Gap → Cursor → Option (Gap × Cursor)
  | 0, g, c => some (g, c)
  | bound + 1, g, c =>
    match c.rest with
    | [] => some (g, c)
    | x :: _ =>
      if isBlank x then
        let refused := x == '\t' && g.breaks.isSome &&
          (match tabLimit with
            | some limit => c.column < limit
            | none => false)
        if refused then none
        else
          let g := if g.breaks.isSome then g else { g with blanks := x :: g.blanks }
          read tabLimit bound g (c.skip 1)
      else if isBreak x then
        let b := c.breakChar
        let breaks := match g.breaks with
          | none => ([b], [])
          | some (first, more) => (first, b :: more)
        read tabLimit bound ⟨[], some breaks⟩ c.skipBreak
      else some (g, c)

end Gap

end SoftwareCensus.Yaml
