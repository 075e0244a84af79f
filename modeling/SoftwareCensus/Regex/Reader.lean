import SoftwareCensus.Regex.Basic
import SoftwareCensus.Regex.Fault

/-!
# Reading patterns

A pattern is read from left to right with a stack of open groups. Every step takes at least one
character, so the length of the pattern bounds the number of steps.

Classes are resolved while they are read: `\w`, `\d`, `\s` and `\b` cover all scripts unless the
`u` mode is off, ignoring case adds every character that differs only in case, and set operations
inside brackets are carried out on the spot.
-/

namespace SoftwareCensus.Regex

open Text Numeral

/-! ## Lexical helpers -/

/-- Skips blanks and comments, when the mode says that they are ignored. -/
private def skipBlanksWithin (modes : Modes) : Nat → List Char → List Char
  | 0, cs => cs
  | bound + 1, cs =>
    if !modes.blanksIgnored then cs
    else match cs.dropWhile isBlank with
      | '#' :: rest => skipBlanksWithin modes bound (rest.dropWhile (· != '\n'))
      | rest => rest

/-- Skips what the mode ignores. -/
private def skipBlanks (modes : Modes) (cs : List Char) : List Char :=
  skipBlanksWithin modes cs.length cs

/-- Characters with a meaning of their own. -/
def metaChars : List Char := "\\.+*?()|[]\x7b\x7d^$#&-~".toList

/-- Whether a backslash before the character just stands for the character. -/
private def isEscapable (c : Char) : Bool :=
  metaChars.contains c ||
    (c.toNat < 0x80 && !c.isAlphanum && c != '<' && c != '>')

/-- Writes a literal so that it matches itself. -/
def escape (s : String) : String :=
  s.foldl (fun acc c => if metaChars.contains c then (acc.push '\\').push c else acc.push c) ""

/-! ## Classes -/

/-- The ASCII part of a set. -/
private def asciiOnly (s : CharSet) : CharSet := s.inter (.ofRanges [(0, 0x7f)])

/-- The set of a one-letter class in lower case: digits, blanks, word characters. -/
private def letterClass (modes : Modes) (c : Char) : CharSet :=
  let full := match c with
    | 'd' => decimalDigits
    | 's' => blanks
    | _ => wordChars
  if modes.unicode then full else asciiOnly full

/-- Named classes in brackets, for the basic alphabet only. -/
private def asciiClass? (name : String) : Option CharSet :=
  let r (ranges : List (Char × Char)) : Option CharSet :=
    some (.ofRanges (ranges.map fun (a, b) => (a.toNat, b.toNat)))
  match name with
  | "alnum" => r [('0', '9'), ('A', 'Z'), ('a', 'z')]
  | "alpha" => r [('A', 'Z'), ('a', 'z')]
  | "ascii" => r [('\x00', '\x7f')]
  | "blank" => r [('\t', '\t'), (' ', ' ')]
  | "cntrl" => r [('\x00', '\x1f'), ('\x7f', '\x7f')]
  | "digit" => r [('0', '9')]
  | "graph" => r [('!', '~')]
  | "lower" => r [('a', 'z')]
  | "print" => r [(' ', '~')]
  | "punct" => r [('!', '/'), (':', '@'), ('[', '\x60'), ('\x7b', '~')]
  | "space" => r [('\t', '\r'), (' ', ' ')]
  | "upper" => r [('A', 'Z')]
  | "word" => r [('0', '9'), ('A', 'Z'), ('a', 'z'), ('_', '_')]
  | "xdigit" => r [('0', '9'), ('A', 'F'), ('a', 'f')]
  | _ => none

/-- Long names of the general categories, with the categories that they cover. -/
private def categoryAliases : List (String × List String) :=
  [("letter", ["Lu", "Ll", "Lt", "Lm", "Lo"]), ("l", ["Lu", "Ll", "Lt", "Lm", "Lo"]),
   ("casedletter", ["Lu", "Ll", "Lt"]), ("lc", ["Lu", "Ll", "Lt"]),
   ("uppercaseletter", ["Lu"]), ("lowercaseletter", ["Ll"]), ("titlecaseletter", ["Lt"]),
   ("modifierletter", ["Lm"]), ("otherletter", ["Lo"]),
   ("mark", ["Mn", "Mc", "Me"]), ("m", ["Mn", "Mc", "Me"]), ("combiningmark", ["Mn", "Mc", "Me"]),
   ("nonspacingmark", ["Mn"]), ("spacingmark", ["Mc"]), ("enclosingmark", ["Me"]),
   ("number", ["Nd", "Nl", "No"]), ("n", ["Nd", "Nl", "No"]),
   ("decimalnumber", ["Nd"]), ("digit", ["Nd"]), ("letternumber", ["Nl"]), ("othernumber", ["No"]),
   ("punctuation", ["Pc", "Pd", "Ps", "Pe", "Pi", "Pf", "Po"]),
   ("p", ["Pc", "Pd", "Ps", "Pe", "Pi", "Pf", "Po"]),
   ("punct", ["Pc", "Pd", "Ps", "Pe", "Pi", "Pf", "Po"]),
   ("connectorpunctuation", ["Pc"]), ("dashpunctuation", ["Pd"]), ("openpunctuation", ["Ps"]),
   ("closepunctuation", ["Pe"]), ("initialpunctuation", ["Pi"]), ("finalpunctuation", ["Pf"]),
   ("otherpunctuation", ["Po"]),
   ("symbol", ["Sm", "Sc", "Sk", "So"]), ("s", ["Sm", "Sc", "Sk", "So"]),
   ("mathsymbol", ["Sm"]), ("currencysymbol", ["Sc"]), ("modifiersymbol", ["Sk"]),
   ("othersymbol", ["So"]),
   ("separator", ["Zs", "Zl", "Zp"]), ("z", ["Zs", "Zl", "Zp"]),
   ("spaceseparator", ["Zs"]), ("lineseparator", ["Zl"]), ("paragraphseparator", ["Zp"]),
   ("other", ["Cc", "Cf", "Cs", "Co", "Cn"]), ("c", ["Cc", "Cf", "Cs", "Co", "Cn"]),
   ("control", ["Cc"]), ("cntrl", ["Cc"]), ("format", ["Cf"]), ("surrogate", ["Cs"]),
   ("privateuse", ["Co"]), ("unassigned", ["Cn"])]

/-- The set of a character property, by its name without blanks, dashes and case. -/
private def property? (name : String) : Option CharSet :=
  match name with
  | "any" => some .full
  | "ascii" => some (.ofRanges [(0, 0x7f)])
  | "assigned" => some (ofCategories ["Cn"]).complement
  | "alphabetic" | "alpha" => some letters
  | "lowercase" | "lower" => some lowercase
  | "uppercase" | "upper" => some uppercase
  | "whitespace" | "wspace" | "space" => some blanks
  | _ =>
    match categoryAliases.find? (·.1 == name) with
    | some (_, categories) => some (ofCategories categories)
    | none =>
      match categoryNames.find? fun n => asciiLower n == name with
      | some n => some (ofCategories [n])
      | none => none

/-- The set of a property as written between the braces. -/
private def propertyOf? (written : List Char) : Option CharSet :=
  let normal (cs : List Char) : String :=
    String.ofList ((cs.filter fun c => !(c == ' ' || c == '_' || c == '-')).map Char.toLower)
  let (negated, written) := match written with
    | '^' :: rest => (true, rest)
    | rest => (false, rest)
  let (field, value) := written.span fun c => c != '=' && c != ':'
  let (field, differs) :=
    if field.getLast? == some '!' && !value.isEmpty then (field.dropLast, true) else (field, false)
  let found := match value with
    | [] => property? (normal field)
    | _ :: value =>
      if normal field == "gc" || normal field == "generalcategory" then property? (normal value)
      else none
  found.map fun s => if negated != differs then s.complement else s

/-- Adds what differs only in case, when the mode ignores case. -/
private def foldIn (modes : Modes) (s : CharSet) : CharSet :=
  if !modes.ignoreCase then s
  else if modes.unicode then caseClosure s
  else
    let shifted (lo hi delta : Nat) (up : Bool) : List (Nat × Nat) :=
      (asciiOnly s).toList.filterMap fun (a, b) =>
        let a := max a lo
        let b := min b hi
        if a ≤ b then some (if up then (a + delta, b + delta) else (a - delta, b - delta)) else none
    .ofRanges (s.toList ++ shifted 65 90 32 true ++ shifted 97 122 32 false)

/-! ## Escapes -/

/-- What an escape stands for. -/
inductive Escape where
  | literal (c : Char)
  | set (s : CharSet)
  | look (l : Look)

/-- Whether a code point is a character. -/
private def char? (code : Nat) : Option Char :=
  if code < 0xd800 || (0xdfff < code && code ≤ 0x10ffff) then some (Char.ofNat code) else none

/-- Reads hexadecimal digits, so many of them. -/
private def readCodeDigits (modes : Modes) : Nat → List Char →
    Except Fault (List Char × List Char)
  | 0, cs => .ok ([], cs)
  | count + 1, cs =>
    match cs with
    | [] => refuse .unfinishedEscape cs cs
    | c :: rest =>
      if (hexValue? c).isNone then refuse .badCodeDigit cs rest
      else do
        let (ds, rest) ← readCodeDigits modes count (skipBlanks modes rest)
        return (c :: ds, rest)

/-- Reads hexadecimal digits up to a brace, given what follows the brace before them. -/
private def readBracedDigits (modes : Modes) (brace : List Char) : List Char →
    Except Fault (List Char × List Char)
  | [] => refuse .unfinishedEscape brace []
  | c :: rest =>
    if c == '}' then .ok ([], c :: rest)
    else if modes.blanksIgnored && isBlank c then readBracedDigits modes brace rest
    else if (hexValue? c).isNone then refuse .badCodeDigit (c :: rest) rest
    else do
      let (ds, rest) ← readBracedDigits modes brace rest
      return (c :: ds, rest)

/-- Reads the digits of `\x`, `\u` or `\U`. -/
private def readHex (modes : Modes) (width : Nat) (cs : List Char) :
    Except Fault (Escape × List Char) := do
  let cs := skipBlanks modes cs
  let (ds, start, stop, rest) ← match cs with
    | [] => refuse .unfinishedEscape cs cs
    | '{' :: inner => do
      let (ds, stop) ← readBracedDigits modes cs inner
      let rest := skipBlanks modes (stop.drop 1)
      if ds.isEmpty then refuse .emptyCode cs rest
      pure (ds, inner, stop, rest)
    | cs => do
      let (ds, rest) ← readCodeDigits modes width cs
      pure (ds, cs, rest, rest)
  match (ofDigitsBase? 16 ds).bind char? with
  | some c =>
    if !modes.unicode && c.toNat > 0x7f then refuse .notText start stop
    else return (.literal c, rest)
  | none => refuse .badCode start stop

/-- Reads the special forms of a word boundary, given what starts with its backslash. -/
private def readBoundary (modes : Modes) (start cs : List Char) :
    Except Fault (Escape × List Char) :=
  let ascii := !modes.unicode
  let plain : Except Fault (Escape × List Char) := .ok (.look (.wordBoundary ascii), cs)
  match cs with
  | '{' :: inner =>
    let inner := skipBlanks modes inner
    let (name, after) := inner.span fun c => c.isAlpha || c == '-'
    if inner.isEmpty then refuse .unfinishedBoundary start []
    else if name.isEmpty then plain
    else match skipBlanks modes after with
      | '}' :: after =>
        match String.ofList name with
        | "start" => .ok (.look (.wordStart ascii), after)
        | "end" => .ok (.look (.wordEnd ascii), after)
        | "start-half" => .ok (.look (.wordStartHalf ascii), after)
        | "end-half" => .ok (.look (.wordEndHalf ascii), after)
        | _ => refuse .unknownBoundary inner ('}' :: after)
      | after => refuse .unclosedBoundary cs after
  | _ => plain

/-- Reads a property after its letter, given what starts with its backslash. -/
private def readProperty (modes : Modes) (negated : Bool) (start cs : List Char) :
    Except Fault (Escape × List Char) := do
  let cs := skipBlanks modes cs
  let (name, rest) ← match cs with
    | '{' :: inner =>
      let (name, rest) := inner.span (· != '}')
      if rest.isEmpty then refuse .unfinishedEscape [] [] else pure (name, rest.tail)
    | '\\' :: rest => refuse .badProperty cs rest
    | l :: rest => pure ([l], rest)
    | [] => refuse .unfinishedEscape cs cs
  match propertyOf? name with
  | none => refuse .unknownProperty start rest
  | some s =>
    let s := foldIn modes s
    return (.set (if negated then s.complement else s), rest)

/-- Reads an escape after its backslash. -/
private def readEscape (modes : Modes) (cs : List Char) : Except Fault (Escape × List Char) :=
  let start := '\\' :: cs
  match cs with
  | [] => refuse .unfinishedEscape start []
  | c :: rest =>
    let ascii := !modes.unicode
    if c.isDigit then refuse .backreference start rest
    else if isEscapable c then .ok (.literal c, rest)
    else match c with
      | 'x' => readHex modes 2 rest
      | 'u' => readHex modes 4 rest
      | 'U' => readHex modes 8 rest
      | 'p' | 'P' =>
        if ascii then refuse .notText start rest else readProperty modes (c == 'P') start rest
      | 'd' | 's' | 'w' => .ok (.set (letterClass modes c), rest)
      | 'D' | 'S' | 'W' =>
        if ascii then refuse .notText start rest
        else .ok (.set (letterClass modes c.toLower).complement, rest)
      | 'a' => .ok (.literal '\x07', rest)
      | 'f' => .ok (.literal '\x0c', rest)
      | 't' => .ok (.literal '\t', rest)
      | 'n' => .ok (.literal '\n', rest)
      | 'r' => .ok (.literal '\r', rest)
      | 'v' => .ok (.literal '\x0b', rest)
      | 'A' => .ok (.look .startText, rest)
      | 'z' => .ok (.look .endText, rest)
      | 'b' => readBoundary modes start rest
      | 'B' => if ascii then refuse .notText start rest
        else .ok (.look (.notWordBoundary false), rest)
      | '<' => .ok (.look (.wordStart ascii), rest)
      | '>' => .ok (.look (.wordEnd ascii), rest)
      | _ => refuse .unknownEscape start rest

/-! ## Bracketed classes -/

/-- A set operation inside brackets. -/
inductive SetOp where
  | inter
  | diff
  | symmDiff

/-- Carries out a set operation. -/
private def SetOp.apply : SetOp → CharSet → CharSet → CharSet
  | .inter => CharSet.inter
  | .diff => CharSet.diff
  | .symmDiff => CharSet.symmDiff

/-- A bracket that is still open: whether it is negated, the operation that waits for its right
side, and the union read so far. -/
structure OpenClass where
  /-- The bracket and what stands directly after it. -/
  part : Part
  negated : Bool
  pending : Option (SetOp × CharSet)
  union : List (Nat × Nat)

/-- The set of an open class, its pending operation carried out. -/
private def OpenClass.value (modes : Modes) (c : OpenClass) : CharSet :=
  let right := CharSet.ofRanges c.union
  match c.pending with
  | none => right
  | some (op, left) => op.apply (foldIn modes left) (foldIn modes right)

/-- The set of a class at its closing bracket. -/
private def OpenClass.close (modes : Modes) (c : OpenClass) : CharSet :=
  let s := foldIn modes (c.value modes)
  if c.negated then s.complement else s

/-- Reads what stands directly after an opening bracket: a negation, dashes, a closing bracket
that is meant literally. -/
private def openClass (modes : Modes) (cs : List Char) : Except Fault (OpenClass × List Char) := do
  let start := '[' :: cs
  let opened (negated : Bool) (union : List (Nat × Nat)) (rest : List Char) :
      OpenClass × List Char := (⟨⟨start.length, rest.length⟩, negated, none, union⟩, rest)
  let cs := skipBlanks modes cs
  let (negated, cs) := match cs with
    | '^' :: rest => (true, skipBlanks modes rest)
    | rest => (false, rest)
  match cs with
  | [] => refuse .unclosedClass start []
  | '-' :: _ =>
    let rest := skipBlanks modes
      (cs.dropWhile fun c => c == '-' || modes.blanksIgnored && isBlank c)
    if rest.isEmpty then refuse .unclosedClass start start
    return opened negated [('-'.toNat, '-'.toNat)] rest
  | ']' :: rest =>
    let rest := skipBlanks modes rest
    if rest.isEmpty then refuse .unclosedClass start []
    return opened negated [(']'.toNat, ']'.toNat)] rest
  | cs => return opened negated [] cs

/-- Reads a named class such as `[:alpha:]` after its first bracket, if there is one. -/
private def readNamedClass : List Char → Option (CharSet × List Char)
  | ':' :: rest =>
    let (negated, rest) := match rest with
      | '^' :: r => (true, r)
      | r => (false, r)
    let (name, rest) := rest.span (· != ':')
    match rest with
    | ':' :: ']' :: rest =>
      (asciiClass? (String.ofList name)).map fun s => (if negated then s.complement else s, rest)
    | _ => none
  | _ => none

/-- Refuses a pattern for a class without its closing bracket. -/
private def OpenClass.refuseUnclosed {α : Type} (c : OpenClass) : Except Fault α :=
  .error ⟨.unclosedClass, c.part, none⟩

/-- Reads one literal or class of a bracket. -/
private def readClassItem (modes : Modes) (current : OpenClass) :
    List Char → Except Fault (Escape × List Char)
  | [] => current.refuseUnclosed
  | '\\' :: rest => readEscape modes rest
  | c :: rest =>
    if !modes.unicode && c.toNat > 0x7f then refuse .notText (c :: rest) rest
    else .ok (.literal c, rest)

/-- The literal that a bound of a range is, given what stands from its start and from its end. -/
private def boundOf (start stop : List Char) : Escape → Except Fault Char
  | .literal c => .ok c
  | _ => refuse .badClassBound start stop

/-- Reads an item of a bracket, or a range of two literals. -/
private def readClassRange (modes : Modes) (current : OpenClass) (cs : List Char) :
    Except Fault (CharSet × List Char) := do
  let (first, stop) ← readClassItem modes current cs
  let rest := skipBlanks modes stop
  let alone : Except Fault (CharSet × List Char) := match first with
    | .literal c => .ok (.singleton c, rest)
    | .set s => .ok (s, rest)
    | .look _ => refuse .badClassEscape cs stop
  match rest with
  | [] => current.refuseUnclosed
  | '-' :: after =>
    match skipBlanks modes after with
    | ']' :: _ => alone
    | '-' :: _ => alone
    | after =>
      let (second, rest) ← readClassItem modes current after
      let a ← boundOf cs stop first
      let b ← boundOf after rest second
      if a.toNat ≤ b.toNat then return (.ofRanges [(a.toNat, b.toNat)], rest)
      else refuse .badClassRange cs rest
  | _ => alone

/-- Reads a bracketed class after its opening bracket, with the brackets around it. The first
argument bounds the number of steps. -/
private def readClass (modes : Modes) :
    Nat → OpenClass → List OpenClass → List Char → Except Fault (CharSet × List Char)
  | 0, current, _, _ => current.refuseUnclosed
  | bound + 1, current, outer, cs =>
    let operator (op : SetOp) (rest : List Char) :=
      readClass modes bound { current with pending := some (op, current.value modes), union := [] }
        outer rest
    match skipBlanks modes cs with
    | [] => current.refuseUnclosed
    | '[' :: rest =>
      match readNamedClass rest with
      | some (s, rest) =>
        readClass modes bound { current with union := current.union ++ s.toList } outer rest
      | none => do
        let (inner, rest) ← openClass modes rest
        readClass modes bound inner (current :: outer) rest
    | ']' :: rest =>
      let s := current.close modes
      match outer with
      | [] => .ok (s, rest)
      | parent :: outer =>
        readClass modes bound { parent with union := parent.union ++ s.toList } outer rest
    | '&' :: '&' :: rest => operator .inter rest
    | '-' :: '-' :: rest => operator .diff rest
    | '~' :: '~' :: rest => operator .symmDiff rest
    | cs => do
      let (s, rest) ← readClassRange modes current cs
      readClass modes bound { current with union := current.union ++ s.toList } outer rest

/-! ## Groups, repetitions and the pattern as a whole -/

/-- A group that is still open: the choices before the last bar, the items after it (both in
reverse), the modes to return to, its index, and whether the last item may be repeated. -/
structure OpenGroup where
  choices : List Expr
  items : List Expr
  outerModes : Modes
  index : Option Nat
  repeatable : Bool
  /-- Its opening parenthesis. -/
  part : Part

/-- What the items of a choice amount to. -/
private def catOf (items : List Expr) : Expr :=
  match items with
  | [] => .empty
  | [e] => e
  | items => .cat items.reverse

/-- The expression inside a group at its end. -/
private def OpenGroup.body (g : OpenGroup) : Expr :=
  match g.choices with
  | [] => catOf g.items
  | choices => .alt (catOf g.items :: choices).reverse

/-- Adds an item that may be repeated. -/
private def OpenGroup.push (g : OpenGroup) (e : Expr) : OpenGroup :=
  { g with items := e :: g.items, repeatable := true }

/-- Where a letter was seen before. -/
private def rivalOf (seen : List (Char × Part)) (c : Char) : Option Part :=
  (seen.find? (·.1 == c)).map (·.2)

/-- Reads mode letters up to a colon or a closing parenthesis; returns the new modes and whether
the letters open a group. The letters seen so far come with their places, latest first. -/
private def readModes (seen : List (Char × Part)) (modes : Modes) :
    List Char → Except Fault (Modes × Bool × List Char)
  | [] => refuse .unclosedFlags [] []
  | c :: rest =>
    let here : Part := ⟨rest.length + 1, rest.length⟩
    let seen' := (c, here) :: seen
    if c == ':' || c == ')' then
      match seen with
      | ('-', dash) :: _ => .error ⟨.danglingNegation, dash, none⟩
      | _ => .ok (modes, c == ':', rest)
    else if c == '-' then
      match rivalOf seen c with
      | some rival => .error ⟨.repeatedNegation, here, some rival⟩
      | none => readModes seen' modes rest
    else
      let on := (rivalOf seen '-').isNone
      let next? : Option Modes := match c with
        | 'i' => some { modes with ignoreCase := on }
        | 'm' => some { modes with multiLine := on }
        | 's' => some { modes with dotAll := on }
        | 'U' => some { modes with lazyByDefault := on }
        | 'u' => some { modes with unicode := on }
        | 'R' => some { modes with crlf := on }
        | 'x' => some { modes with blanksIgnored := on }
        | _ => none
      match next?, rivalOf seen c with
      | none, _ => .error ⟨.unknownFlag, here, none⟩
      | _, some rival => .error ⟨.duplicateFlag, here, some rival⟩
      | some next, none => readModes seen' next rest

/-- Reads the name of a capture group after its angle bracket. -/
private def readGroupName (isFirst : Bool) : List Char → Except Fault (List Char × List Char)
  | [] => refuse .unclosedGroupName [] []
  | c :: rest =>
    let fits := c == '_' || letters.contains c ||
      (!isFirst && (c == '.' || c == '[' || c == ']' || numerics.contains c))
    if c == '>' then
      if isFirst then refuse .emptyGroupName (c :: rest) (c :: rest) else .ok ([], c :: rest)
    else if !fits then refuse .badGroupName (c :: rest) rest
    else do
      let (name, rest) ← readGroupName false rest
      return (c :: name, rest)

/-- The greatest number of a repetition. -/
private def maxCount : Nat := 4294967295

/-- Reads a decimal count with blanks around it. -/
private def readCount (cs : List Char) : Except Fault Nat × List Char :=
  let cs := cs.dropWhile isBlank
  let (ds, stop) := spanDigits cs
  let n : Except Fault Nat :=
    if ds.isEmpty then refuse .emptyCount cs stop
    else if ofDigits ds > maxCount then refuse .badNumber cs stop
    else .ok (ofDigits ds)
  (n, stop.dropWhile isBlank)

/-- Reads the counts of a repetition, given what starts with its opening brace. The counts may be
in the wrong order. -/
private def readCounts (modes : Modes) (start : List Char) :
    Except Fault (Nat × Option Nat × List Char) := do
  let unclosed {α : Type} (stop : List Char) : Except Fault α := refuse .unclosedCount start stop
  let cs := skipBlanks modes (start.drop 1)
  if cs.isEmpty then unclosed []
  let (least, rest) := readCount cs
  match rest with
  | [] => unclosed []
  | ',' :: rest =>
    match skipBlanks modes rest with
    | [] => unclosed []
    | '}' :: rest => return (← least, none, rest)
    | rest =>
      let least ← least
      let (most, rest) := readCount rest
      let most ← most
      match rest with
      | '}' :: rest => return (least, some most, rest)
      | rest => unclosed rest
  | rest =>
    let least ← least
    match rest with
    | '}' :: rest => return (least, some least, rest)
    | rest => unclosed rest

/-- What is known while a pattern is read. -/
structure ReadState where
  modes : Modes
  current : OpenGroup
  outer : List OpenGroup
  groups : Nat
  /-- The names of groups with their indices, and their places. -/
  names : List (String × Nat × Part)

/-- The set of a literal. -/
private def literalSet (modes : Modes) (c : Char) : CharSet := foldIn modes (.singleton c)

/-- The set of a dot. -/
private def dotSet (modes : Modes) : CharSet :=
  if modes.dotAll then .full
  else if modes.crlf then (CharSet.ofRanges [(0xa, 0xa), (0xd, 0xd)]).complement
  else (CharSet.ofRanges [(0xa, 0xa)]).complement

/-- Adds an item to the innermost group. -/
private def ReadState.push (st : ReadState) (e : Expr) : ReadState :=
  { st with current := st.current.push e }

/-- Opens a group. -/
private def ReadState.opened (st : ReadState) (part : Part) (index : Option Nat) (modes : Modes) :
    ReadState :=
  { st with
    modes := modes
    current := ⟨[], [], st.modes, index, false, part⟩
    outer := st.current :: st.outer }

/-- Repeats the last item, if there is one. -/
private def ReadState.repeated (st : ReadState) (least : Nat) (most : Option Nat)
    (marked : Bool) : ReadState :=
  match st.current.items with
  | e :: items =>
    let greedy := marked != st.modes.lazyByDefault
    { st with current :=
      { st.current with items := .rep e least most greedy :: items, repeatable := true } }
  | [] => st

/-- Reads a group after its opening parenthesis. -/
private def readGroupStart (st : ReadState) (cs : List Char) :
    Except Fault (ReadState × List Char) :=
  let start := '(' :: cs
  let part : Part := ⟨start.length, cs.length⟩
  let named (cs : List Char) : Except Fault (ReadState × List Char) := do
    let (name, rest) ← readGroupName true cs
    let name := String.ofList name
    let place : Part := ⟨cs.length, rest.length⟩
    match st.names.find? (·.1 == name) with
    | some (_, _, rival) => throw ⟨.duplicateGroupName, place, some rival⟩
    | none =>
      let index := st.groups + 1
      return ({ st with groups := index, names := st.names ++ [(name, index, place)] }.opened part
        (some index) st.modes, rest.drop 1)
  match skipBlanks st.modes cs with
  | '?' :: '=' :: rest | '?' :: '!' :: rest => refuse .lookAround start rest
  | '?' :: '<' :: '=' :: rest | '?' :: '<' :: '!' :: rest => refuse .lookAround start rest
  | '?' :: 'P' :: '<' :: rest => named rest
  | '?' :: '<' :: rest => named rest
  | '?' :: [] => refuse .unclosedGroup start cs
  | '?' :: ')' :: rest => refuse .nothingToRepeat ('?' :: ')' :: rest) ('?' :: ')' :: rest)
  | '?' :: rest => do
    let (modes, opens, rest) ← readModes [] st.modes rest
    if opens then return (st.opened part none modes, rest)
    else return ({ st with modes, current := { st.current with repeatable := false } }, rest)
  | rest =>
    let index := st.groups + 1
    .ok ({ st with groups := index }.opened part (some index) st.modes, rest)

/-- Reads one construct of a pattern. -/
private def readStep (st : ReadState) : List Char → Except Fault (ReadState × List Char)
  | [] => .ok (st, [])
  | '(' :: rest => readGroupStart st rest
  | ')' :: rest =>
    match st.outer with
    | [] => refuse .unopenedGroup (')' :: rest) rest
    | parent :: outer =>
      let closed := Expr.group st.current.index st.current.body
      .ok ({ st with modes := st.current.outerModes, current := parent.push closed, outer }, rest)
  | '|' :: rest =>
    .ok ({ st with current := { st.current with
      choices := catOf st.current.items :: st.current.choices, items := [], repeatable := false } },
      rest)
  | '[' :: cs => do
    let (current, rest) ← openClass st.modes cs
    let (set, rest) ← readClass st.modes (2 * rest.length + 2) current [] rest
    if !st.modes.unicode && set.toList.any (fun (_, hi) => hi > 0x7f) then
      refuse .notText ('[' :: cs) rest
    return (st.push (.chars set), rest)
  | '\\' :: rest => do
    let (e, rest) ← readEscape st.modes rest
    match e with
    | .literal c => .ok (st.push (.chars (literalSet st.modes c)), rest)
    | .set s => .ok (st.push (.chars s), rest)
    | .look l => .ok (st.push (.look l), rest)
  | '.' :: rest =>
    if st.modes.unicode then .ok (st.push (.chars (dotSet st.modes)), rest)
    else refuse .notText ('.' :: rest) rest
  | '^' :: rest =>
    let l := if !st.modes.multiLine then .startText
      else if st.modes.crlf then .startLineCrlf else .startLine
    .ok (st.push (.look l), rest)
  | '$' :: rest =>
    let l := if !st.modes.multiLine then .endText
      else if st.modes.crlf then .endLineCrlf else .endLine
    .ok (st.push (.look l), rest)
  | '{' :: cs => do
    let start := '{' :: cs
    if !st.current.repeatable then refuse .nothingToRepeat start start
    let (least, most, rest) ← readCounts st.modes start
    let (greedy, rest) := match skipBlanks st.modes rest with
      | '?' :: rest => (false, rest)
      | rest => (true, rest)
    if most.any (· < least) then refuse .badCountRange start rest
    return (st.repeated least most greedy, rest)
  | c :: rest =>
    if c == '*' || c == '+' || c == '?' then
      if !st.current.repeatable then refuse .nothingToRepeat (c :: rest) (c :: rest)
      else
        let least := if c == '+' then 1 else 0
        let most := if c == '?' then some 1 else none
        match rest with
        | '?' :: rest => .ok (st.repeated least most false, rest)
        | rest => .ok (st.repeated least most true, rest)
    else .ok (st.push (.chars (literalSet st.modes c)), rest)

/-- Reads the constructs of a pattern one after another, in at most the given number of steps. -/
private def readSteps : Nat → ReadState → List Char → Except Fault ReadState
  | 0, st, _ => .ok st
  | bound + 1, st, cs =>
    match skipBlanks st.modes cs with
    | [] => .ok st
    | cs => do
      let (st, rest) ← readStep st cs
      readSteps bound st rest

/-- The greatest nesting of a pattern. -/
def maxDepth : Nat := 250

/-- A pattern that has been read: its expression and its groups. -/
structure Pattern where
  expr : Expr
  groups : Nat
  names : List (String × Nat)

/-- Reads a pattern in the given modes. -/
def Pattern.read (modes : Modes) (source : String) : Except Fault Pattern := do
  let cs := source.toList
  let start : ReadState := ⟨modes, ⟨[], [], modes, none, false, ⟨0, 0⟩⟩, [], 0, []⟩
  let st ← readSteps (cs.length + 1) start cs
  if !st.outer.isEmpty then throw ⟨.unclosedGroup, st.current.part, none⟩
  let expr := st.current.body
  if expr.depth > maxDepth then refuse .nestedTooDeep cs []
  return ⟨expr, st.groups, st.names.map fun (name, index, _) => (name, index)⟩

end SoftwareCensus.Regex
