/-!
# Sets of characters

A set of code points as ascending, disjoint, non-adjacent ranges, with membership by bisection and
the Boolean operations that character classes need.
-/

namespace SoftwareCensus.Text

/-- A set of code points: its ranges `(first, last)` are ascending and never touch. -/
structure CharSet where
  ranges : Array (Nat × Nat)
  deriving Inhabited, DecidableEq

namespace CharSet

/-- The greatest code point. -/
def maxCode : Nat := 0x10ffff

/-- Merges ranges that are sorted by their first code point. -/
private def mergeSorted : Option (Nat × Nat) → List (Nat × Nat) → List (Nat × Nat)
  | none, [] => []
  | some r, [] => [r]
  | none, r :: rest => mergeSorted (some r) rest
  | some (lo, hi), (lo', hi') :: rest =>
    if lo' ≤ hi + 1 then mergeSorted (some (lo, max hi hi')) rest
    else (lo, hi) :: mergeSorted (some (lo', hi')) rest

/-- The set that the given ranges cover, in any order. -/
def ofRanges (ranges : List (Nat × Nat)) : CharSet :=
  let sorted := (ranges.filter fun (lo, hi) => lo ≤ hi).mergeSort fun a b => a.1 ≤ b.1
  ⟨(mergeSorted none sorted).toArray⟩

/-- The set of one character. -/
def singleton (c : Char) : CharSet := ⟨#[(c.toNat, c.toNat)]⟩

/-- The empty set. -/
def empty : CharSet := ⟨#[]⟩

/-- Every code point. -/
def full : CharSet := ⟨#[(0, maxCode)]⟩

/-- The ranges as a list. -/
def toList (s : CharSet) : List (Nat × Nat) := s.ranges.toList

/-- Bisection for a code point between two positions, in at most the given number of steps. -/
private def searchIn (ranges : Array (Nat × Nat)) (code : Nat) : Nat → Nat → Nat → Bool
  | 0, _, _ => false
  | steps + 1, lo, hi =>
    if lo ≥ hi then false
    else
      let mid := (lo + hi) / 2
      match ranges[mid]? with
      | none => false
      | some (first, last) =>
        if code < first then searchIn ranges code steps lo mid
        else if code > last then searchIn ranges code steps (mid + 1) hi
        else true

/-- Whether a code point is in the set. -/
def containsCode (s : CharSet) (code : Nat) : Bool :=
  searchIn s.ranges code (s.ranges.size + 1) 0 s.ranges.size

/-- Whether a character is in the set. -/
def contains (s : CharSet) (c : Char) : Bool := s.containsCode c.toNat

/-- The union of two sets. -/
def union (a b : CharSet) : CharSet := ofRanges (a.toList ++ b.toList)

/-- The union of several sets. -/
def unions (sets : List CharSet) : CharSet := ofRanges (sets.flatMap toList)

/-- The gaps between ranges, from a code point on. -/
private def gaps (start : Nat) : List (Nat × Nat) → List (Nat × Nat)
  | [] => if start ≤ maxCode then [(start, maxCode)] else []
  | (lo, hi) :: rest =>
    if start < lo then (start, lo - 1) :: gaps (hi + 1) rest else gaps (hi + 1) rest

/-- The code points outside the set. -/
def complement (s : CharSet) : CharSet := ⟨(gaps 0 s.toList).toArray⟩

/-- The code points in both sets. -/
def inter (a b : CharSet) : CharSet := (a.complement.union b.complement).complement

/-- The code points of the first set that are not in the second. -/
def diff (a b : CharSet) : CharSet := a.inter b.complement

/-- The code points in exactly one of the sets. -/
def symmDiff (a b : CharSet) : CharSet := (a.union b).diff (a.inter b)

/-- How many code points the set holds. -/
def size (s : CharSet) : Nat := s.toList.foldl (fun n (lo, hi) => n + (hi - lo + 1)) 0

/-- The code points of a small set, in order. -/
def codes (s : CharSet) : List Nat :=
  s.toList.flatMap fun (lo, hi) => (List.range (hi - lo + 1)).map (lo + ·)

end CharSet

end SoftwareCensus.Text
