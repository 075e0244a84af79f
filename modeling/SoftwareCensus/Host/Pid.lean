import SoftwareCensus.Document.Decode
import SoftwareCensus.Text.Category

/-!
# Ids of processes

The id of a process is the text that an inventory gives it, which need not be a number. Ids with a
number come first, in the order of their numbers; ids of one number, and those without a number,
are in the order of their texts.
-/

namespace SoftwareCensus

open Numeral

/-- The id of a process. -/
structure Pid where
  text : String
  deriving DecidableEq, Inhabited, Repr

namespace Pid

/-- The id that every chain of parents ends in. -/
def root : Pid := ⟨"0"⟩

/-- The number of an id, if it has one. -/
def number? (p : Pid) : Option Nat :=
  (readNat? (Text.trimList p.text.toList)).filter (· ≤ maxUInt64)

/-- Whether nothing but blanks is there. -/
def isBlank (p : Pid) : Bool := (Text.trimList p.text.toList).isEmpty

/-- Whether this stands for no process: zero, or nothing at all. -/
def isRoot (p : Pid) : Bool :=
  match p.number? with
  | some n => n == 0
  | none => p.isBlank

/-- Whether this is a process above the first one. Ids without a number are. -/
def isAboveInit (p : Pid) : Bool :=
  match p.number? with
  | some n => 1 < n
  | none => !p.isBlank

/-- The order of ids. -/
def cmp (p q : Pid) : Ordering :=
  match p.number?, q.number? with
  | some m, some n => (compare m n).then (compare p.text q.text)
  | some _, none => .lt
  | none, some _ => .gt
  | none, none => compare p.text q.text

instance : Ord Pid := ⟨cmp⟩

/-! ## Sets of ids -/

/-- Adds an id to a list in ascending order. -/
def insert (p : Pid) : List Pid → List Pid
  | [] => [p]
  | q :: rest =>
    match cmp p q with
    | .lt => p :: q :: rest
    | .eq => q :: rest
    | .gt => q :: insert p rest

/-! ## Decoding -/

/-- Cuts an integer to the signed 64-bit range. -/
private def saturate (n : Int) : Int := max minInt64 (min maxInt64 n)

/-- The integer part of a double, cut to the signed 64-bit range. -/
private def wholePart (x : Binary64) : Int :=
  if x.isNaN then 0
  else
    let magnitude : Nat :=
      if !x.isFinite then twoTo 64
      else if x.exponent ≥ 0 then x.significand * twoTo (min x.exponent.toNat 64)
      else x.significand / twoTo (-x.exponent).toNat
    saturate (if x.isNegative then -(magnitude : Int) else magnitude)

/-- Reads an id: the digits of a number, a text without the blanks around it, or nothing. -/
def decode? (s : Source) : Option Pid :=
  s.settled?.bind fun
    | .int n => some ⟨toString (saturate n)⟩
    | .float x => some ⟨toString (wholePart x)⟩
    | .str s => some ⟨Text.trim s⟩
    | .null => some ⟨""⟩
    | _ => none

end Pid

end SoftwareCensus
