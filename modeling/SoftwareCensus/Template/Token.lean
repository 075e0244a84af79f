import SoftwareCensus.Text.Category
import SoftwareCensus.Template.Value

/-!
# Tokens of templates

A template alternates between text and tags. Inside a tag, or in an expression that stands alone,
words, literals and punctuation are told apart. What cannot be read becomes a token of its own, so
that the fault surfaces when the reader of the grammar arrives there, and not before.
-/

namespace SoftwareCensus.Template

open Numeral Text

/-- Punctuation of expressions. -/
inductive Punct where
  | plus | minus | star | slash | slashSlash | percent | tilde | dot | comma | colon | pipe
  | assign | eq | ne | gt | ge | lt | le | pow
  | openParen | closeParen | openBracket | closeBracket | openBrace | closeBrace
  deriving DecidableEq, Inhabited

/-- A token. -/
inductive Token where
  | data (s : String)
  | varStart
  | varEnd
  | blockStart
  | blockEnd
  | word (s : String)
  | str (s : String)
  | int (n : Nat)
  | float (x : Binary64)
  | punct (p : Punct)
  | fault (f : Fault)
  deriving DecidableEq, Inhabited

/-! ## Literals -/

/-- A pending leading surrogate may only be followed by its partner. -/
private def joinSurrogates (high low : Nat) : Char :=
  Char.ofNat (0x10000 + (high - 0xd800) * 0x400 + (low - 0xdc00))

/-- Resolves the escapes of a string literal. -/
def unescape (high : Option Nat) (acc : List Char) : List Char → Option (List Char)
  | '\\' :: 'u' :: a :: b :: c :: d :: rest =>
    match ofDigitsBase? 16 [a, b, c, d] with
    | none => none
    | some u =>
      match high with
      | some h =>
        if 0xdc00 ≤ u && u ≤ 0xdfff then unescape none (joinSurrogates h u :: acc) rest else none
      | none =>
        if 0xd800 ≤ u && u ≤ 0xdbff then unescape (some u) acc rest
        else if 0xdc00 ≤ u && u ≤ 0xdfff then none
        else unescape none (Char.ofNat u :: acc) rest
  | '\\' :: 'x' :: a :: b :: rest =>
    if high.isSome then none
    else match ofDigitsBase? 16 [a, b] with
      | some n => unescape none (Char.ofNat n :: acc) rest
      | none => none
  | '\\' :: c :: rest =>
    if high.isSome then none
    else match c with
      | '"' | '\\' | '/' | '\'' => unescape none (c :: acc) rest
      | 'b' => unescape none ('\x08' :: acc) rest
      | 'f' => unescape none ('\x0c' :: acc) rest
      | 'n' => unescape none ('\n' :: acc) rest
      | 'r' => unescape none ('\r' :: acc) rest
      | 't' => unescape none ('\t' :: acc) rest
      | c =>
        if '0' ≤ c && c ≤ '7' then
          match rest with
          | d :: e :: rest' =>
            let octal (x : Char) : Bool := '0' ≤ x && x ≤ '7'
            if octal d && octal e then
              let n := 64 * digitValue c + 8 * digitValue d + digitValue e
              if n > 255 then none else unescape none (Char.ofNat n :: acc) rest'
            else if octal d then
              unescape none (Char.ofNat (8 * digitValue c + digitValue d) :: acc) (e :: rest')
            else unescape none (Char.ofNat (digitValue c) :: acc) (d :: e :: rest')
          | [d] =>
            if '0' ≤ d && d ≤ '7' then
              unescape none (Char.ofNat (8 * digitValue c + digitValue d) :: acc) []
            else unescape none (Char.ofNat (digitValue c) :: acc) [d]
          | [] => unescape none (Char.ofNat (digitValue c) :: acc) []
        else none
  | ['\\'] => none
  | c :: rest => if high.isSome then none else unescape none (c :: acc) rest
  | [] => if high.isSome then none else some acc.reverse

/-- Splits a string literal after its opening quote: the characters between the quotes, still
escaped, and the rest. -/
private def splitLiteral (quote : Char) (acc : List Char) :
    List Char → Option (List Char × List Char)
  | '\\' :: c :: rest => splitLiteral quote (c :: '\\' :: acc) rest
  | c :: rest => if c == quote then some (acc.reverse, rest) else splitLiteral quote (c :: acc) rest
  | [] => none

/-- Where a numeral is being read. -/
inductive NumeralPart where
  | radix
  | whole
  | fraction
  | exponent
  | exponentDigits
  deriving DecidableEq

/-- Takes the characters of a numeral. -/
private def takeNumeral (base : Nat) (part : NumeralPart) (acc : List Char) :
    List Char → NumeralPart × List Char × List Char
  | [] => (part, acc.reverse, [])
  | c :: rest =>
    let next? : Option NumeralPart :=
      if c == '_' then some part
      else if c.isDigit then some (if part == .exponent then .exponentDigits else part)
      else if c == '.' && part == .whole then some .fraction
      else if (c == 'e' || c == 'E') && (part == .whole || part == .fraction) then some .exponent
      else if (c == '+' || c == '-') && part == .exponent then some .exponentDigits
      else if part == .radix && base == 16 && (hexValue? c).isSome then some .radix
      else none
    match next? with
    | some next => takeNumeral base next (c :: acc) rest
    | none => (part, acc.reverse, c :: rest)

/-- Reads a numeral. -/
private def readNumeral (cs : List Char) : Token × List Char :=
  let (base, part, body) : Nat × NumeralPart × List Char := match cs with
    | '0' :: x :: rest =>
      if x == 'b' || x == 'B' then (2, .radix, rest)
      else if x == 'o' || x == 'O' then (8, .radix, rest)
      else if x == 'x' || x == 'X' then (16, .radix, rest)
      else (10, .whole, cs)
    | cs => (10, .whole, cs)
  let (part, chars, rest) := takeNumeral base part [] body
  let bad (why : String) : Token × List Char := (.fault (.malformed why), rest)
  if chars.getLast? == some '_' then bad "'_' may not occur at end of number"
  else
    let chars := chars.filter (· != '_')
    if part == .radix || part == .whole then
      match ofDigitsBase? base chars with
      | some n => if n < twoTo 128 then (.int n, rest) else bad "invalid integer (too large)"
      | none => bad "invalid integer"
    else match readDouble? chars with
      | some x => (.float x, rest)
      | none => bad "invalid float"

/-! ## Words and punctuation -/

/-- Whether a character may begin a word. -/
private def startsWord (c : Char) : Bool := c.isAlpha || c == '_'

/-- Whether a character may continue a word. -/
private def continuesWord (c : Char) : Bool := c.isAlphanum || c == '_'

/-- The punctuation at the front, with what it does to the nesting of brackets. -/
private def readPunct : List Char → Option (Punct × Int × List Char)
  | '/' :: '/' :: r => some (.slashSlash, 0, r)
  | '*' :: '*' :: r => some (.pow, 0, r)
  | '=' :: '=' :: r => some (.eq, 0, r)
  | '!' :: '=' :: r => some (.ne, 0, r)
  | '>' :: '=' :: r => some (.ge, 0, r)
  | '<' :: '=' :: r => some (.le, 0, r)
  | '+' :: r => some (.plus, 0, r)
  | '-' :: r => some (.minus, 0, r)
  | '*' :: r => some (.star, 0, r)
  | '/' :: r => some (.slash, 0, r)
  | '%' :: r => some (.percent, 0, r)
  | '~' :: r => some (.tilde, 0, r)
  | '.' :: r => some (.dot, 0, r)
  | ',' :: r => some (.comma, 0, r)
  | ':' :: r => some (.colon, 0, r)
  | '|' :: r => some (.pipe, 0, r)
  | '=' :: r => some (.assign, 0, r)
  | '>' :: r => some (.gt, 0, r)
  | '<' :: r => some (.lt, 0, r)
  | '(' :: r => some (.openParen, 1, r)
  | ')' :: r => some (.closeParen, -1, r)
  | '[' :: r => some (.openBracket, 1, r)
  | ']' :: r => some (.closeBracket, -1, r)
  | '{' :: r => some (.openBrace, 1, r)
  | '}' :: r => some (.closeBrace, -1, r)
  | _ => none

/-- Blanks between the tokens of a tag. -/
private def isTagBlank (c : Char) : Bool :=
  c == ' ' || c == '\t' || c == '\n' || c == '\r' || c == '\x0c'

/-- Reads a token inside a tag. -/
private def readToken (cs : List Char) : Token × Int × List Char :=
  match cs with
  | [] => (.fault (.malformed "unexpected end of input"), 0, [])
  | c :: rest =>
    if startsWord c then
      let (w, rest) := cs.span continuesWord
      (.word (String.ofList w), 0, rest)
    else if c.isDigit then
      let (t, rest) := readNumeral cs
      (t, 0, rest)
    else if c == '"' || c == '\'' then
      match splitLiteral c [] rest with
      | none => (.fault (.malformed "unexpected end of string"), 0, [])
      | some (body, rest) =>
        match unescape none [] body with
        | some s => (.str (String.ofList s), 0, rest)
        | none => (.fault .badEscape, 0, [])
    else match readPunct cs with
      | some (p, nesting, rest) => (.punct p, nesting, rest)
      | none => (.fault (.malformed "unexpected character"), 0, [])

/-- Whether the list begins with the given characters; the rest behind them. -/
private def afterPrefix? : List Char → List Char → Option (List Char)
  | [], cs => some cs
  | p :: ps, c :: cs => if p == c then afterPrefix? ps cs else none
  | _ :: _, [] => none

/-! ## Tags and text -/

/-- Where the scanner is. -/
inductive Place where
  | text
  | variableTag
  | blockTag
  /-- An expression without any tag around it. -/
  | bare
  deriving DecidableEq

/-- The end of a tag at the front: whether blanks behind it are dropped, and the rest. -/
private def tagEnd? (close : List Char) (cs : List Char) : Option (Bool × List Char) :=
  match cs with
  | '-' :: rest =>
    match afterPrefix? close rest with
    | some rest => some (true, rest)
    | none => none
  | '+' :: rest =>
    match afterPrefix? close rest with
    | some rest => some (false, rest)
    | none => none
  | cs => (afterPrefix? close cs).map (false, ·)

/-- A tag that consists of one word, after its opening mark: whether it drops the blanks before
and behind it, and the rest. -/
private def wordTag? (name : String) (cs : List Char) : Option (Bool × Bool × List Char) :=
  let (dropBefore, cs) := match cs with
    | '-' :: rest => (true, rest)
    | '+' :: rest => (false, rest)
    | cs => (false, cs)
  match afterPrefix? name.toList (cs.dropWhile isTagBlank) with
  | none => none
  | some rest =>
    (tagEnd? ['%', '}'] (rest.dropWhile isTagBlank)).map fun (dropAfter, rest) =>
      (dropBefore, dropAfter, rest)

/-- Removes blanks from the end of a list that is held in reverse. -/
private def dropEndBlanks (reversed : List Char) : List Char := reversed.dropWhile isBlank

/-- The text of a raw block up to its end tag: the text in reverse, what the end tag drops, and
the rest. -/
private def rawBlock (acc : List Char) : List Char → Option (List Char × Bool × Bool × List Char)
  | [] => none
  | '{' :: '%' :: rest =>
    match wordTag? "endraw" rest with
    | some (dropBefore, dropAfter, rest) => some (acc, dropBefore, dropAfter, rest)
    | none => rawBlock ('%' :: '{' :: acc) rest
  | c :: rest => rawBlock (c :: acc) rest

/-- Skips a comment: whether blanks behind it are dropped, and the rest. -/
private def commentEnd (last : Char) : List Char → Option (Bool × List Char)
  | [] => none
  | '#' :: '}' :: rest => some (last == '-', rest)
  | c :: rest => commentEnd c rest

/-- Prepends the text held in reverse as a token, if there is any. -/
private def flush (reversed : List Char) (tokens : List Token) : List Token :=
  if reversed.isEmpty then tokens else .data (String.ofList reversed.reverse) :: tokens

/-- Scans a template. The tokens found and the text being collected are held in reverse; each step
takes at least one character, so the length of the text bounds the number of steps. -/
private def scan : Nat → Place → Int → List Char → List Token → List Char → List Token
  | 0, _, _, _, tokens, _ => tokens.reverse
  | steps + 1, .text, _, pending, tokens, cs =>
    let opened (rest : List Char) : List Char × List Char := match rest with
      | '-' :: rest => (dropEndBlanks pending, rest)
      | '+' :: rest => (pending, rest)
      | rest => (pending, rest)
    let resume (drop : Bool) (rest : List Char) : List Char :=
      if drop then rest.dropWhile isBlank else rest
    match cs with
    | [] => (flush pending tokens).reverse
    | '{' :: '{' :: rest =>
      let (pending, rest) := opened rest
      scan steps .variableTag 0 [] (.varStart :: flush pending tokens) rest
    | '{' :: '%' :: rest =>
      match wordTag? "raw" rest with
      | some (dropBefore, dropAfter, body) =>
        let tokens := flush (if dropBefore then dropEndBlanks pending else pending) tokens
        match rawBlock [] body with
        | none => (.fault (.malformed "unexpected end of raw block") :: tokens).reverse
        | some (raw, dropEnd, dropBehind, rest) =>
          let raw := if dropEnd then dropEndBlanks raw else raw
          let raw := if dropAfter then (raw.reverse.dropWhile isBlank).reverse else raw
          scan steps .text 0 [] (flush raw tokens) (resume dropBehind rest)
      | none =>
        let (pending, rest) := opened rest
        scan steps .blockTag 0 [] (.blockStart :: flush pending tokens) rest
    | '{' :: '#' :: rest =>
      let pending := match rest with
        | '-' :: _ => dropEndBlanks pending
        | _ => pending
      match commentEnd '#' rest with
      | none => (.fault (.malformed "unexpected end of comment") :: flush pending tokens).reverse
      | some (drop, rest) => scan steps .text 0 [] (flush pending tokens) (resume drop rest)
    | c :: rest => scan steps .text 0 (c :: pending) tokens rest
  | steps + 1, place, nesting, _, tokens, cs =>
    match cs.dropWhile isTagBlank with
    | [] => tokens.reverse
    | cs =>
      let close := if place == .blockTag then ['%', '}'] else ['}', '}']
      let ended := if place == .bare || nesting != 0 then none else tagEnd? close cs
      match ended with
      | some (drop, rest) =>
        let token := if place == .blockTag then Token.blockEnd else Token.varEnd
        scan steps .text 0 [] (token :: tokens) (if drop then rest.dropWhile isBlank else rest)
      | none =>
        let (token, change, rest) := readToken cs
        match token with
        | .fault f => (.fault f :: tokens).reverse
        | token => scan steps place (nesting + change) [] (token :: tokens) rest

/-- One line break at the end of a template is not part of it. -/
private def dropLastBreak (cs : List Char) : List Char :=
  match cs.reverse with
  | '\n' :: '\r' :: rest => rest.reverse
  | '\n' :: rest => rest.reverse
  | '\r' :: rest => rest.reverse
  | _ => cs

/-- The tokens of a template. -/
def Token.ofTemplate (source : String) : List Token :=
  let cs := dropLastBreak source.toList
  scan (cs.length + 1) .text 0 [] [] cs

/-- The tokens of an expression that stands alone. -/
def Token.ofExpression (source : String) : List Token :=
  let cs := source.toList
  scan (cs.length + 1) .bare 0 [] [] cs

end SoftwareCensus.Template
