import SoftwareCensus.Document.Source

/-!
# Reading JSON

Text is cut into lexemes, and a machine with a stack of open brackets assembles the value from
them. Each lexeme is looked at once, so the machine is a recursion on the lexeme list and nesting
is bounded by the height of the stack.

Integers beyond 64 bits and the numeral `-0` are read as doubles. `Json.source?` keeps keys that
occur twice; in the document that `Json.read?` returns the last of them wins.
-/

namespace SoftwareCensus.Json

open Numeral

/-- A lexeme of JSON text. -/
inductive Lexeme where
  | openList
  | closeList
  | openMap
  | closeMap
  | comma
  | colon
  | text (s : String)
  | literal (d : Source)
  deriving Inhabited

/-! ## Strings -/

/-- The code unit that four hexadecimal digits spell. -/
def codeUnit? (a b c d : Char) : Option Nat := ofDigitsBase? 16 [a, b, c, d]

/-- The character of a one-letter escape. -/
def simpleEscape? : Char → Option Char
  | '"' => some '"'
  | '\\' => some '\\'
  | '/' => some '/'
  | 'b' => some '\x08'
  | 'f' => some '\x0c'
  | 'n' => some '\n'
  | 'r' => some '\r'
  | 't' => some '\t'
  | _ => none

/-- Reads the rest of a string literal. `high` is a leading surrogate that still waits for its
partner; the characters read so far come in reverse. -/
def readString (high : Option Nat) (acc : List Char) :
    List Char → Option (String × List Char)
  | '\\' :: 'u' :: a :: b :: c :: d :: rest =>
    match codeUnit? a b c d with
    | none => none
    | some u =>
      match high with
      | some h =>
        if 0xdc00 ≤ u && u ≤ 0xdfff then
          readString none (Char.ofNat (0x10000 + (h - 0xd800) * 0x400 + (u - 0xdc00)) :: acc) rest
        else none
      | none =>
        if 0xd800 ≤ u && u ≤ 0xdbff then readString (some u) acc rest
        else if 0xdc00 ≤ u && u ≤ 0xdfff then none
        else readString none (Char.ofNat u :: acc) rest
  | '\\' :: c :: rest =>
    if high.isSome then none
    else match simpleEscape? c with
      | some e => readString none (e :: acc) rest
      | none => none
  | '"' :: rest => if high.isSome then none else some (String.ofList acc.reverse, rest)
  | c :: rest =>
    if high.isSome || c.toNat < 0x20 then none else readString none (c :: acc) rest
  | [] => none

/-! ## Numbers -/

/-- Extends a significand by digits as long as it stays within 64 bits; returns it, the number of
digits taken and the rest. -/
def takeSignificand (n : Nat) (taken : Nat) : List Char → Nat × Nat × List Char
  | [] => (n, taken, [])
  | c :: rest =>
    if c.isDigit && (10 * n + digitValue c : Int) ≤ maxUInt64 then
      takeSignificand (10 * n + digitValue c) (taken + 1) rest
    else (n, taken, c :: rest)

/-- The greatest exponent that is still read digit by digit. -/
private def maxExponent : Nat := 2147483647

/-- Reads the digits of an exponent. -/
def readExponentDigits (negative : Bool) (n : Nat) (shift : Int) (down : Bool) (cs : List Char) :
    Option (Binary64 × List Char) :=
  let (ds, rest) := spanDigits cs
  if ds.isEmpty then none
  else
    let e := ofDigits ds
    if e > maxExponent then
      if n != 0 && !down then none
      else some ((Decimal.mk negative 0 0).nearest, rest)
    else
      let e : Int := if down then shift - e else shift + e
      (Decimal.mk negative n e).scaled.map (·, rest)

/-- Reads the exponent part after its mark. -/
def readExponent (negative : Bool) (n : Nat) (shift : Int) :
    List Char → Option (Binary64 × List Char)
  | '+' :: rest => readExponentDigits negative n shift false rest
  | '-' :: rest => readExponentDigits negative n shift true rest
  | rest => readExponentDigits negative n shift false rest

/-- Reads what follows the digits of a double: an exponent or nothing. -/
def readDoubleEnd (negative : Bool) (n : Nat) (shift : Int) :
    List Char → Option (Binary64 × List Char)
  | 'e' :: rest => readExponent negative n shift rest
  | 'E' :: rest => readExponent negative n shift rest
  | rest => (Decimal.mk negative n shift).scaled.map (·, rest)

/-- Reads the digits after the point. Digits that would push the significand beyond 64 bits are
dropped. -/
def readFraction (negative : Bool) (n : Nat) (shift : Int) (cs : List Char) :
    Option (Binary64 × List Char) :=
  let (n, taken, rest) := takeSignificand n 0 cs
  let (extra, rest) := spanDigits rest
  if taken == 0 && extra.isEmpty then none
  else readDoubleEnd negative n (shift - taken) rest

/-- Reads the digits before the point, as far as they stay within 64 bits. A zero stands alone. -/
def readWhole : List Char → Option (Nat × List Char)
  | '0' :: c :: rest => if c.isDigit then none else some (0, c :: rest)
  | ['0'] => some (0, [])
  | c :: rest =>
    if c.isDigit then
      let (n, _, rest) := takeSignificand 0 0 (c :: rest)
      some (n, rest)
    else none
  | [] => none

/-- An integer that is not followed by anything of a double. Integers out of range and the
negative zero are doubles. -/
def integer (negative : Bool) (n : Nat) : Option Source :=
  if !negative then some (.int n)
  else if n == 0 || -(n : Int) < minInt64 then (Decimal.mk true n 0).scaled.map .float
  else some (.int (-(n : Int)))

/-- A double that was read, as a value. -/
def asDouble (r : Option (Binary64 × List Char)) : Option (Source × List Char) :=
  r.map fun (x, rest) => (.float x, rest)

/-- Reads what follows the digits before the point, of which so many did not fit: a fraction, an
exponent, or nothing. -/
def readAfterWhole (negative : Bool) (n dropped : Nat) : List Char → Option (Source × List Char)
  | '.' :: rest => asDouble (readFraction negative n dropped rest)
  | 'e' :: rest => asDouble (readExponent negative n dropped rest)
  | 'E' :: rest => asDouble (readExponent negative n dropped rest)
  | rest =>
    if dropped == 0 then (integer negative n).map (·, rest)
    else asDouble ((Decimal.mk negative n dropped).scaled.map (·, rest))

/-- Reads a number after its sign. -/
def readNumber (negative : Bool) (cs : List Char) : Option (Source × List Char) :=
  (readWhole cs).bind fun (n, rest) =>
    let (dropped, rest) := spanDigits rest
    readAfterWhole negative n dropped.length rest

/-! ## Lexemes -/

/-- Whether a character may stand between lexemes. -/
def isBlank (c : Char) : Bool := c == ' ' || c == '\n' || c == '\t' || c == '\r'

/-- Reads one lexeme off the front. -/
def nextLexeme : List Char → Option (Lexeme × List Char)
  | '[' :: rest => some (.openList, rest)
  | ']' :: rest => some (.closeList, rest)
  | '{' :: rest => some (.openMap, rest)
  | '}' :: rest => some (.closeMap, rest)
  | ',' :: rest => some (.comma, rest)
  | ':' :: rest => some (.colon, rest)
  | '"' :: rest => (readString none [] rest).map fun (s, rest) => (.text s, rest)
  | 't' :: 'r' :: 'u' :: 'e' :: rest => some (.literal (.bool true), rest)
  | 'f' :: 'a' :: 'l' :: 's' :: 'e' :: rest => some (.literal (.bool false), rest)
  | 'n' :: 'u' :: 'l' :: 'l' :: rest => some (.literal .null, rest)
  | '-' :: rest => (readNumber true rest).map fun (d, rest) => (.literal d, rest)
  | cs => (readNumber false cs).map fun (d, rest) => (.literal d, rest)

/-- Cuts text into lexemes. The first argument bounds their number. -/
def lexemesWithin : Nat → List Lexeme → List Char → Option (List Lexeme)
  | 0, _, _ => none
  | bound + 1, acc, cs =>
    match cs.dropWhile isBlank with
    | [] => some acc.reverse
    | cs =>
      match nextLexeme cs with
      | none => none
      | some (lexeme, rest) => lexemesWithin bound (lexeme :: acc) rest

/-- The lexemes of a text; `none` if some part of it is no lexeme. -/
def lexemes? (cs : List Char) : Option (List Lexeme) := lexemesWithin (cs.length + 1) [] cs

/-! ## Values -/

/-- A bracket that is still open, with what it holds so far. -/
inductive Frame where
  /-- A list, its items in reverse. -/
  | items (acc : List Source)
  /-- A mapping, its entries in reverse, and the key whose value is being read. -/
  | entry (acc : List (Source × Source)) (key : String)

/-- What may come next. -/
inductive Expect where
  /-- A value. -/
  | value
  /-- A value, or the end of a list just opened. -/
  | firstItem
  /-- A key; it belongs to the mapping that holds the entries so far. -/
  | key (acc : List (Source × Source))
  /-- A key, or the end of a mapping just opened. -/
  | firstKey
  /-- The colon after a key. -/
  | colon (acc : List (Source × Source)) (key : String)
  /-- A comma or a closing bracket after a complete value. -/
  | separator (value : Source)

/-- How deep brackets may nest. -/
def maxDepth : Nat := 127

/-- Assembles a value from lexemes. -/
def assemble : List Lexeme → List Frame → Expect → Option Source
  | [], [], .separator d => some d
  | [], _, _ => none
  | .openList :: rest, stack, .value | .openList :: rest, stack, .firstItem =>
    if stack.length ≥ maxDepth then none else assemble rest (.items [] :: stack) .firstItem
  | .openMap :: rest, stack, .value | .openMap :: rest, stack, .firstItem =>
    if stack.length ≥ maxDepth then none else assemble rest stack .firstKey
  | .text s :: rest, stack, .value | .text s :: rest, stack, .firstItem =>
    assemble rest stack (.separator (.str s))
  | .literal d :: rest, stack, .value | .literal d :: rest, stack, .firstItem =>
    assemble rest stack (.separator d)
  | .closeList :: rest, .items _ :: stack, .firstItem => assemble rest stack (.separator (.list []))
  | .text k :: rest, stack, .key acc => assemble rest stack (.colon acc k)
  | .text k :: rest, stack, .firstKey => assemble rest stack (.colon [] k)
  | .closeMap :: rest, stack, .firstKey => assemble rest stack (.separator (.map []))
  | .colon :: rest, stack, .colon acc k => assemble rest (.entry acc k :: stack) .value
  | .comma :: rest, .items acc :: stack, .separator d =>
    assemble rest (.items (d :: acc) :: stack) .value
  | .closeList :: rest, .items acc :: stack, .separator d =>
    assemble rest stack (.separator (.list (d :: acc).reverse))
  | .comma :: rest, .entry acc k :: stack, .separator d =>
    assemble rest stack (.key ((.str k, d) :: acc))
  | .closeMap :: rest, .entry acc k :: stack, .separator d =>
    assemble rest stack (.separator (.map ((.str k, d) :: acc).reverse))
  | _ :: _, _, _ => none

/-- Reads one JSON value with nothing but blanks around it. -/
def source? (text : String) : Option Source :=
  (lexemes? text.toList).bind fun ls => assemble ls [] .value

/-- Reads one JSON value as a document. -/
def read? (text : String) : Option Document := (source? text).bind Source.toDocument?

end SoftwareCensus.Json
