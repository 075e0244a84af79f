/-!
# Binary64 numbers

A double-precision number held as its bit pattern, so that two numbers can be told apart by a
decidable equality, and the one algorithm that matters for output: the fewest decimal digits
that read back as the same number.

The digits are found in exact natural arithmetic. A finite number is `m · 2^q`; the reals that
round to it form an interval (its ends included exactly when `m` is even). For one, two, …
seventeen digits the two neighbours of the number on that decimal grid are tested, and the first
grid with a hit wins. Rounding to a given number of digits is exact in the same way.
-/

namespace SoftwareCensus.Numeral

/-! ## Powers -/

/-- A power of two. -/
def twoTo (n : Nat) : Nat := Nat.pow 2 n

/-- A power of ten. -/
def tenTo (n : Nat) : Nat := Nat.pow 10 n

/-! ## Numbers -/

/-- A double-precision number, as its bits. -/
structure Binary64 where
  bits : UInt64
  deriving DecidableEq, Inhabited

namespace Binary64

/-- The machine number with these bits. -/
def toFloat (x : Binary64) : Float := Float.ofBits x.bits

/-- The bits of a machine number. -/
def ofFloat (x : Float) : Binary64 := ⟨x.toBits⟩

/-- The sign bit. -/
def isNegative (x : Binary64) : Bool := x.bits >>> 63 != 0

/-- The eleven bits of the biased exponent. -/
def biasedExponent (x : Binary64) : Nat := ((x.bits >>> 52) &&& 0x7ff).toNat

/-- The fifty-two stored bits of the significand. -/
def fraction (x : Binary64) : Nat := (x.bits &&& 0xfffffffffffff).toNat

/-- Neither infinite nor not-a-number. -/
def isFinite (x : Binary64) : Bool := x.biasedExponent != 0x7ff

/-- Not a number. -/
def isNaN (x : Binary64) : Bool := x.biasedExponent == 0x7ff && x.fraction != 0

/-- Zero of either sign. -/
def isZero (x : Binary64) : Bool := x.biasedExponent == 0 && x.fraction == 0

/-- The magnitude of a finite number is `significand · 2 ^ exponent`. -/
def significand (x : Binary64) : Nat :=
  if x.biasedExponent == 0 then x.fraction else x.fraction + twoTo 52

/-- The power of two that scales the significand. -/
def exponent (x : Binary64) : Int :=
  (if x.biasedExponent == 0 then 1 else (x.biasedExponent : Int)) - 1075

/-- Numeric equality: the two zeros are one number, and not-a-number equals nothing. -/
def numEq (x y : Binary64) : Bool :=
  !x.isNaN && !y.isNaN && (x == y || (x.isZero && y.isZero))

/-- The nearest double to an integer. -/
def ofInt (n : Int) : Binary64 := ofFloat (Float.ofInt n)

end Binary64

/-! ## Shortest digits -/

/-- Decimal digits `d₁d₂…dₙ` (no trailing zero unless the number is zero) and the power of ten of
the first one: the number is `d₁.d₂…dₙ · 10 ^ scale`. -/
structure Digits where
  digits : List Char
  scale : Int
  deriving DecidableEq, Inhabited

/-- The decimal digits of a natural number, most significant first. -/
def natDigits (n : Nat) : List Char := Nat.toDigits 10 n

/-- The exponent of the leading decimal digit of `num / den`, for `num` and `den` positive. -/
private def leadingExponent (num den : Nat) : Int :=
  if num ≥ den then ((natDigits (num / den)).length : Int) - 1
  else
    let places := (natDigits (den / num)).length - 1
    if num * tenTo places ≥ den then -(places : Int) else -((places : Int) + 1)

/-- Drops the zeros at the end of a digit list, keeping at least one digit. -/
private def dropTrailingZeros (ds : List Char) : List Char :=
  match (ds.reverse.dropWhile (· == '0')).reverse with
  | [] => ['0']
  | kept => kept

/-- The shortest digits of a positive finite double. -/
private def shortestPositive (m : Nat) (q : Int) (atPowerOfTwo : Bool) : Digits :=
  -- everything is scaled by four, so that both ends of the interval are whole
  let up := twoTo (q - 2).toNat
  let down := twoTo (2 - q).toNat
  let value := 4 * m * up
  let high := (4 * m + 2) * up
  let low := (4 * m - (if atPowerOfTwo then 1 else 2)) * up
  let inside (n : Nat) (den : Nat) (gain : Nat) : Bool :=
    if m % 2 == 0 then low * gain ≤ n * den && n * den ≤ high * gain
    else low * gain < n * den && n * den < high * gain
  let lead := leadingExponent value down
  let rec search : Nat → Nat → Digits
    | 0, places => ⟨dropTrailingZeros (natDigits (value * tenTo places / down)), lead⟩
    | tries + 1, places =>
      let k := lead - places
      let gain := tenTo (-k).toNat
      let den := down * tenTo k.toNat
      let below := value * gain / den
      let above := below + 1
      let hitBelow := below != 0 && inside below den gain
      let hitAbove := inside above den gain
      let pick (n : Nat) : Digits :=
        let ds := natDigits n
        ⟨dropTrailingZeros ds, k + (ds.length : Int) - 1⟩
      if hitBelow && hitAbove then
        let toBelow := value * gain - below * den
        let toAbove := above * den - value * gain
        if toBelow < toAbove then pick below
        else if toAbove < toBelow then pick above
        else if below % 2 == 0 then pick below else pick above
      else if hitBelow then pick below
      else if hitAbove then pick above
      else search tries (places + 1)
  search 17 0

/-- The shortest digits that read back as the magnitude of a finite double. -/
def Binary64.shortest (x : Binary64) : Digits :=
  if x.isZero then ⟨['0'], 0⟩
  else shortestPositive x.significand x.exponent (x.fraction == 0 && x.biasedExponent > 1)

/-! ## Layouts -/

/-- How a format writes the digits of a double: positional notation for leading exponents between
two bounds, scientific notation outside, with or without a plus sign on the exponent. -/
structure FloatLayout where
  positionalFrom : Int
  positionalTo : Int
  plusSign : Bool

/-- Positional notation always has a digit on both sides of the point. -/
def Digits.positional (d : Digits) : String :=
  let n := d.digits.length
  if d.scale < 0 then
    "0." ++ String.ofList (List.replicate ((-d.scale).toNat - 1) '0' ++ d.digits)
  else
    let whole := d.scale.toNat + 1
    if n ≤ whole then
      String.ofList (d.digits ++ List.replicate (whole - n) '0') ++ ".0"
    else
      String.ofList (d.digits.take whole) ++ "." ++ String.ofList (d.digits.drop whole)

/-- Scientific notation has a point only if there is more than one digit. -/
def Digits.scientific (d : Digits) (plusSign : Bool) : String :=
  let mantissa := match d.digits with
    | [] => "0"
    | [c] => String.ofList [c]
    | c :: rest => String.ofList (c :: '.' :: rest)
  let sign := if d.scale < 0 then "-" else if plusSign then "+" else ""
  mantissa ++ "e" ++ sign ++ toString d.scale.natAbs

/-- The text of a finite double in a layout. -/
def Binary64.format (layout : FloatLayout) (x : Binary64) : String :=
  let d := x.shortest
  let body :=
    if layout.positionalFrom ≤ d.scale && d.scale ≤ layout.positionalTo then d.positional
    else d.scientific layout.plusSign
  if x.isNegative then "-" ++ body else body

/-- The text of a finite double without an exponent, whatever its size. -/
def Binary64.formatPositional (x : Binary64) : String :=
  let body := x.shortest.positional
  if x.isNegative then "-" ++ body else body

/-! ## Rounding

A double with a given number of decimal places or significant digits, computed from its exact
value; a tie goes to the even digit. -/

/-- The quotient rounded to the nearest natural number, ties to even. -/
def roundDiv (num den : Nat) : Nat :=
  let q := num / den
  let r := num % den
  if 2 * r < den then q else if 2 * r > den then q + 1 else if q % 2 == 0 then q else q + 1

namespace Binary64

/-- The magnitude of a finite double times a power of ten, rounded. -/
private def scaledMagnitude (x : Binary64) (places : Int) : Nat :=
  let up := twoTo x.exponent.toNat * tenTo places.toNat
  let down := twoTo (-x.exponent).toNat * tenTo (-places).toNat
  roundDiv (x.significand * up) down

/-- The magnitude of a finite double with a number of decimal places. -/
def fixed (x : Binary64) (places : Nat) : String :=
  let ds := natDigits (scaledMagnitude x places)
  let ds := List.replicate (places + 1 - ds.length) '0' ++ ds
  let whole := ds.take (ds.length - places)
  if places == 0 then String.ofList whole
  else String.ofList whole ++ "." ++ String.ofList (ds.drop (ds.length - places))

/-- The magnitude of a finite double as digits with a number of places behind the first one, and
the power of ten of the first digit. -/
def rounded (x : Binary64) (places : Nat) : List Char × Int :=
  if x.isZero then (List.replicate (places + 1) '0', 0)
  else
    let lead := x.shortest.scale
    let ds := natDigits (scaledMagnitude x (places - lead))
    if ds.length > places + 1 then (ds.take (places + 1), lead + 1) else (ds, lead)

end Binary64

end SoftwareCensus.Numeral
