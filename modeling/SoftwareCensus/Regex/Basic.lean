import SoftwareCensus.Text.Case

/-!
# Regular expressions

The expressions themselves, with character classes already resolved to sets. Matching prefers the
leftmost match and, among those, the one that earlier alternatives and greedier repetitions lead
to.
-/

namespace SoftwareCensus.Regex

open Text

/-- A condition on a position of the text. -/
inductive Look where
  | startText
  | endText
  | startLine
  | endLine
  | startLineCrlf
  | endLineCrlf
  | wordBoundary (ascii : Bool)
  | notWordBoundary (ascii : Bool)
  | wordStart (ascii : Bool)
  | wordEnd (ascii : Bool)
  | wordStartHalf (ascii : Bool)
  | wordEndHalf (ascii : Bool)
  deriving DecidableEq, Inhabited

/-- A regular expression. -/
inductive Expr where
  | empty
  | chars (set : CharSet)
  | look (condition : Look)
  | cat (items : List Expr)
  | alt (choices : List Expr)
  | rep (body : Expr) (least : Nat) (most : Option Nat) (greedy : Bool)
  /-- A group; it has an index when it captures. -/
  | group (index : Option Nat) (body : Expr)
  deriving Inhabited

/-- Modes that a pattern can switch on and off. -/
structure Modes where
  ignoreCase : Bool := false
  multiLine : Bool := false
  dotAll : Bool := false
  lazyByDefault : Bool := false
  unicode : Bool := true
  blanksIgnored : Bool := false
  crlf : Bool := false
  deriving DecidableEq, Inhabited

namespace Expr

mutual

/-- Whether the expression can match without consuming a character. -/
def canBeEmpty : Expr → Bool
  | empty => true
  | chars _ => false
  | look _ => true
  | cat items => allCanBeEmpty items
  | alt choices => anyCanBeEmpty choices
  | rep body least _ _ => least == 0 || canBeEmpty body
  | group _ body => canBeEmpty body

/-- Whether every expression of a list can match without consuming a character. -/
def allCanBeEmpty : List Expr → Bool
  | [] => true
  | e :: rest => canBeEmpty e && allCanBeEmpty rest

/-- Whether some expression of a list can match without consuming a character. -/
def anyCanBeEmpty : List Expr → Bool
  | [] => false
  | e :: rest => canBeEmpty e || anyCanBeEmpty rest

end

mutual

/-- How deep constructs are nested. -/
def depth : Expr → Nat
  | empty | chars _ | look _ => 0
  | cat items => depthOfAll items + 1
  | alt choices => depthOfAll choices + 1
  | rep body _ _ _ => depth body + 1
  | group _ body => depth body + 1

/-- The greatest depth in a list. -/
def depthOfAll : List Expr → Nat
  | [] => 0
  | e :: rest => max (depth e) (depthOfAll rest)

end

mutual

/-- How many instructions the expression needs. -/
def cost : Expr → Nat
  | empty => 0
  | chars _ | look _ => 1
  | cat items => costOfAll items
  | alt choices => costOfAll choices + 2 * choices.length
  | rep body least most _ =>
    (cost body + 2) * (match most with
      | some m => max least m
      | none => least + 1)
  | group _ body => cost body + 2

/-- The instructions that a list of expressions needs. -/
def costOfAll : List Expr → Nat
  | [] => 0
  | e :: rest => cost e + costOfAll rest

end

end Expr

end SoftwareCensus.Regex
