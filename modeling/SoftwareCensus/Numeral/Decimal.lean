import SoftwareCensus.Numeral.Binary64

/-!
# Reading decimal numerals

Two rules turn a decimal numeral into a double. `Decimal.nearest` rounds the exact value once.
`Decimal.scaled` rounds the digits to a double first and then multiplies or divides by a power of
ten, which rounds a second time; formats that trade the last bit for speed use it.
-/

namespace SoftwareCensus.Numeral

/-- A decimal numeral: `(-1)^negative · digits · 10^exponent`. -/
structure Decimal where
  negative : Bool
  digits : Nat
  exponent : Int
  deriving DecidableEq, Inhabited

namespace Decimal

/-- Puts the sign on a magnitude. -/
private def signed (negative : Bool) (x : Float) : Binary64 :=
  Binary64.ofFloat (if negative then -x else x)

/-- The double nearest to the exact value; values beyond the range become infinite. -/
def nearest (d : Decimal) : Binary64 :=
  let size : Int := (natDigits d.digits).length + d.exponent
  let magnitude : Float :=
    if d.digits == 0 then 0.0
    else if size > 400 then 1.0 / 0.0
    else if size < -400 then 0.0
    else Float.ofScientific d.digits (d.exponent < 0) d.exponent.natAbs
  signed d.negative magnitude

/-- The power of ten `10 ^ n` as a double, for `n ≤ 308`. -/
private def powerOfTen (n : Nat) : Float := Float.ofScientific 1 false n

/-- Scales a double by a power of ten, in steps of at most `10 ^ 308`; `none` on overflow. The
first argument bounds the number of downward steps. -/
private def scaleBy : Nat → Float → Int → Option Float
  | steps, f, e =>
    if e.natAbs ≤ 308 then
      if e ≥ 0 then
        let g := f * powerOfTen e.toNat
        if g.isInf then none else some g
      else some (f / powerOfTen e.natAbs)
    else if f == 0.0 then some f
    else if e ≥ 0 then none
    else match steps with
      | 0 => some 0.0
      | steps + 1 => scaleBy steps (f / 1e308) (e + 308)

/-- The digits rounded to a double and then scaled; `none` if that is not finite. -/
def scaled (d : Decimal) : Option Binary64 :=
  ((scaleBy 4 (Float.ofNat d.digits) d.exponent).map (signed d.negative)).filter (·.isFinite)

theorem isFinite_of_scaled {d : Decimal} {x : Binary64} (h : d.scaled = some x) : x.isFinite = true :=
  (Option.filter_eq_some_iff.mp h).2

end Decimal

/-! ## Digit lists -/

/-- The value of a decimal digit. -/
def digitValue (c : Char) : Nat := c.toNat - '0'.toNat

/-- The natural number that a list of decimal digits spells. -/
def ofDigits (ds : List Char) : Nat := ds.foldl (fun n c => 10 * n + digitValue c) 0

/-- The value of a hexadecimal digit. -/
def hexValue? (c : Char) : Option Nat :=
  if c.isDigit then some (c.toNat - '0'.toNat)
  else if 'a' ≤ c && c ≤ 'f' then some (c.toNat - 'a'.toNat + 10)
  else if 'A' ≤ c && c ≤ 'F' then some (c.toNat - 'A'.toNat + 10)
  else none

/-- The number that a list of digits spells in a base of at most sixteen; `none` if a character is
not a digit of the base, or if there is none. -/
def ofDigitsBase? (base : Nat) (ds : List Char) : Option Nat :=
  if ds.isEmpty then none
  else ds.foldlM (fun n c => do
    let d ← hexValue? c
    if d < base then some (base * n + d) else none) 0

/-- Splits the decimal digits off the front. -/
def spanDigits (cs : List Char) : List Char × List Char := cs.span Char.isDigit

/-! ## Range of the integers -/

/-- The least signed 64-bit integer. -/
def minInt64 : Int := -9223372036854775808

/-- The greatest signed 64-bit integer. -/
def maxInt64 : Int := 9223372036854775807

/-- The greatest unsigned 64-bit integer. -/
def maxUInt64 : Int := 18446744073709551615

/-- The integers that fit into 64 bits, signed or unsigned. -/
def fits64 (n : Int) : Bool := minInt64 ≤ n && n ≤ maxUInt64

theorem fits64_iff {n : Int} : fits64 n = true ↔ minInt64 ≤ n ∧ n ≤ maxUInt64 := by
  simp [fits64]

/-- For a natural number the lower bound says nothing. -/
theorem fits64_natCast {n : Nat} : fits64 n = true ↔ (n : Int) ≤ maxUInt64 := by
  have hlow : minInt64 ≤ n := by
    simp only [minInt64]
    omega
  exact fits64_iff.trans (and_iff_right hlow)

/-- Reads an optionally signed decimal integer with nothing around it. -/
def readInt? (cs : List Char) : Option Int :=
  let (negative, ds) := match cs with
    | '-' :: r => (true, r)
    | '+' :: r => (false, r)
    | r => (false, r)
  if ds.isEmpty || !ds.all Char.isDigit then none
  else some (if negative then -(ofDigits ds : Int) else ofDigits ds)

/-- Reads an unsigned decimal integer, which may carry a plus sign. -/
def readNat? (cs : List Char) : Option Nat :=
  let ds := match cs with
    | '+' :: r => r
    | r => r
  if ds.isEmpty || !ds.all Char.isDigit then none else some (ofDigits ds)

/-- Reads a decimal numeral as number parsers of general-purpose languages do: a sign, digits with
an optional point (digits on one side suffice), an optional exponent, or a word for infinity or
not-a-number in any case. -/
def readDouble? (cs : List Char) : Option Binary64 :=
  let (negative, body) := match cs with
    | '-' :: r => (true, r)
    | '+' :: r => (false, r)
    | r => (false, r)
  let word := body.map Char.toLower
  if word == "inf".toList || word == "infinity".toList then
    some (Binary64.ofFloat (if negative then -(1.0 / 0.0) else 1.0 / 0.0))
  else if word == "nan".toList then some (Binary64.ofFloat (0.0 / 0.0))
  else
    let (whole, rest) := spanDigits body
    let (fractional, rest) := match rest with
      | '.' :: r => spanDigits r
      | r => ([], r)
    if whole.isEmpty && fractional.isEmpty then none
    else
      let exponent? : Option Int := match rest with
        | [] => some 0
        | c :: r => if c == 'e' || c == 'E' then readInt? r else none
      exponent?.map fun e =>
        (Decimal.mk negative (ofDigits (whole ++ fractional)) (e - fractional.length)).nearest

end SoftwareCensus.Numeral
