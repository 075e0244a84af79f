import SoftwareCensus.Document.Yaml.Cursor
import SoftwareCensus.Numeral.Decimal

/-!
# Tokens of YAML

Indentation is turned into brackets: a column further right than the block around it opens a block
collection, one further left closes the blocks in between. Whether a scalar is a key is known only
at the colon behind it; until then it is remembered as a possible key, and the marks for key and
mapping are put in front of it afterwards.
-/

namespace SoftwareCensus.Yaml

open Numeral

/-- A token. -/
inductive Token where
  | version (major minor : Nat)
  | tagHandle (handle expansion : String)
  | documentStart
  | documentEnd
  | blockList
  | blockMap
  | blockEnd
  | flowList
  | flowListEnd
  | flowMap
  | flowMapEnd
  | entry
  | comma
  | key
  | value
  | reference (name : String)
  | anchor (name : String)
  | tag (handle suffix : String)
  | scalar (text : String) (isPlain : Bool)
  deriving DecidableEq, Inhabited

/-- A scalar or collection that may turn out to be a key: where it begins, which token it is, and
whether only a key may stand there. -/
structure PossibleKey where
  token : Nat
  index : Nat
  line : Nat
  column : Nat
  required : Bool

/-- What is known while tokens are found. Columns of open blocks come innermost first; there is
one place for a possible key per open flow collection and one for the block around. -/
structure ScanState where
  cursor : Cursor
  tokens : Array Token
  indent : Int
  outerIndents : List Int
  keyAllowed : Bool
  possibleKey : Option PossibleKey
  outerKeys : List (Option PossibleKey)

namespace ScanState

/-- Whether a flow collection is open. -/
def inFlow (s : ScanState) : Bool := !s.outerKeys.isEmpty

/-- Adds a token. -/
def push (s : ScanState) (t : Token) : ScanState := { s with tokens := s.tokens.push t }

/-- Puts a token before one that was added earlier. -/
def insertToken (s : ScanState) (place : Nat) (t : Token) : ScanState :=
  { s with tokens := (s.tokens.extract 0 place).push t ++ s.tokens.extract place s.tokens.size }

/-- Forgets the possible key; fails if only a key may stand there. -/
def dropKey (s : ScanState) : Option ScanState :=
  match s.possibleKey with
  | some k => if k.required then none else some { s with possibleKey := none }
  | none => some s

/-- How far a key may be from its colon. -/
def keyReach : Nat := 1024

/-- Forgets a possible key that is on another line or too far back. -/
def dropStaleKey (s : ScanState) : Option ScanState :=
  match s.possibleKey with
  | some k =>
    if k.line < s.cursor.line || k.index + keyReach < s.cursor.index then s.dropKey else some s
  | none => some s

/-- Remembers that what begins here may be a key. -/
def noteKey (s : ScanState) : Option ScanState :=
  if !s.keyAllowed then some s
  else do
    let s ← s.dropKey
    let c := s.cursor
    let required := !s.inFlow && s.indent == (c.column : Int)
    some { s with possibleKey := some ⟨s.tokens.size, c.index, c.line, c.column, required⟩ }

/-- Opens a block collection at a column, if that column is further right than the block around.
The token goes to a place among those found. -/
def openBlock (s : ScanState) (column place : Nat) (t : Token) : ScanState :=
  if s.inFlow || s.indent ≥ (column : Int) then s
  else
    { s.insertToken place t with indent := column, outerIndents := s.indent :: s.outerIndents }

/-- Closes one block after another until a column is reached. -/
def closeBlocks (column : Int) : List Int → ScanState → ScanState
  | [], s => s
  | outer :: rest, s =>
    if s.inFlow || s.indent ≤ column then s
    else closeBlocks column rest { s.push .blockEnd with indent := outer, outerIndents := rest }

/-- Closes the blocks to the right of a column. -/
def unwind (s : ScanState) (column : Int) : ScanState := closeBlocks column s.outerIndents s

/-- Moves behind a token of the given length and adds it. -/
def accept (s : ScanState) (length : Nat) (t : Token) : ScanState :=
  { s.push t with cursor := s.cursor.skip length }

end ScanState

/-! ## Between tokens -/

/-- Skips blanks, comments and line breaks. -/
private def skipToToken : Nat → ScanState → ScanState
  | 0, s => s
  | bound + 1, s =>
    match s.cursor.rest with
    | ' ' :: _ => skipToToken bound { s with cursor := s.cursor.skip 1 }
    | '\t' :: _ =>
      if s.inFlow || !s.keyAllowed then skipToToken bound { s with cursor := s.cursor.skip 1 }
      else s
    | '#' :: _ => skipToToken bound { s with cursor := s.cursor.skipLine }
    | c :: _ =>
      if isBreak c then
        skipToToken bound
          { s with cursor := s.cursor.skipBreak, keyAllowed := s.keyAllowed || !s.inFlow }
      else s
    | [] => s

/-! ## Plain scalars -/

/-- Takes the characters of a plain scalar up to a blank or the end of the scalar. `none` if a
colon stands before flow punctuation. -/
private def takePlain (inFlow : Bool) (acc : List Char) : List Char → Option (List Char × List Char)
  | [] => some (acc, [])
  | c :: rest =>
    let isFlowMark (x : Char) : Bool := x == ',' || x == '[' || x == ']' || x == '{' || x == '}'
    let refused := inFlow && c == ':' && (match rest with
      | d :: _ => isFlowMark d || d == '?'
      | [] => false)
    if isBlank c || isBreak c then some (acc, c :: rest)
    else if refused then none
    else if c == ':' && blankNext rest then some (acc, c :: rest)
    else if inFlow && isFlowMark c then some (acc, c :: rest)
    else takePlain inFlow (c :: acc) rest

/-- Reads a plain scalar: its text in reverse, where it ends, and whether a line break was crossed.
-/
private def readPlain (inFlow : Bool) (indent : Nat) :
    Nat → Gap → List Char → Cursor → Option (List Char × Cursor × Bool)
  | 0, _, out, c => some (out, c, false)
  | bound + 1, gap, out, c =>
    let crossed := gap.breaks.isSome
    let atComment := match c.rest with
      | '#' :: _ => true
      | _ => false
    if c.atDocumentMark || atComment then some (out, c, crossed)
    else
      match takePlain inFlow [] c.rest with
      | none => none
      | some (word, rest) =>
        if word.isEmpty then some (out, c, crossed)
        else
          let out := word ++ gap.fold.reverse ++ out
          let c := c.skip word.length
          match rest with
          | x :: _ =>
            if isBlank x || isBreak x then
              match Gap.read (some indent) rest.length Gap.empty c with
              | none => none
              | some (gap, c') =>
                if !inFlow && c'.column < indent then some (out, c', gap.breaks.isSome)
                else readPlain inFlow indent bound gap out c'
            else some (out, c, false)
          | [] => some (out, c, false)

/-! ## Quoted scalars -/

/-- The character of a one-letter escape. -/
private def escapeChar? : Char → Option Char
  | '0' => some '\x00'
  | 'a' => some '\x07'
  | 'b' => some '\x08'
  | 't' => some '\t'
  | '\t' => some '\t'
  | 'n' => some '\n'
  | 'v' => some '\x0b'
  | 'f' => some '\x0c'
  | 'r' => some '\r'
  | 'e' => some '\x1b'
  | ' ' => some ' '
  | '"' => some '"'
  | '/' => some '/'
  | '\\' => some '\\'
  | 'N' => some (Char.ofNat 0x85)
  | '_' => some (Char.ofNat 0xa0)
  | 'L' => some (Char.ofNat 0x2028)
  | 'P' => some (Char.ofNat 0x2029)
  | _ => none

/-- How many digits a numeric escape has. -/
private def escapeWidth? : Char → Option Nat
  | 'x' => some 2
  | 'u' => some 4
  | 'U' => some 8
  | _ => none

/-- Takes the characters of a quoted scalar up to a blank, a break, an escaped break or the quote;
the count is that of the characters passed over. -/
private def takeQuoted (single : Bool) : Nat → List Char → Nat → List Char →
    Option (List Char × Nat × List Char)
  | 0, acc, n, cs => some (acc, n, cs)
  | bound + 1, acc, n, cs =>
    match cs with
    | [] => some (acc, n, [])
    | c :: rest =>
      if isBlank c || isBreak c then some (acc, n, cs)
      else if single then
        match c, rest with
        | '\'', '\'' :: rest => takeQuoted single bound ('\'' :: acc) (n + 2) rest
        | '\'', _ => some (acc, n, cs)
        | c, rest => takeQuoted single bound (c :: acc) (n + 1) rest
      else if c == '"' then some (acc, n, cs)
      else if c == '\\' then
        match rest with
        | [] => none
        | e :: rest =>
          if isBreak e then some (acc, n, cs)
          else match escapeChar? e with
            | some x => takeQuoted single bound (x :: acc) (n + 2) rest
            | none =>
              match escapeWidth? e with
              | none => none
              | some w =>
                match ofDigitsBase? 16 (rest.take w) with
                | none => none
                | some code =>
                  if rest.length < w || (0xd800 ≤ code && code ≤ 0xdfff) || code > 0x10ffff then
                    none
                  else takeQuoted single bound (Char.ofNat code :: acc) (n + 2 + w) (rest.drop w)
      else takeQuoted single bound (c :: acc) (n + 1) rest

/-- Reads a quoted scalar behind its opening quote: its text in reverse and where it ends. -/
private def readQuoted (single : Bool) : Nat → List Char → Cursor → Option (List Char × Cursor)
  | 0, _, _ => none
  | bound + 1, out, c =>
    if c.atDocumentMark || c.rest.isEmpty then none
    else
      match takeQuoted single (c.rest.length + 1) [] 0 c.rest with
      | none => none
      | some (word, n, rest) =>
        let out := word ++ out
        let c := { c with rest := rest, index := c.index + n, column := c.column + n }
        match rest with
        | [] => none
        | x :: more =>
          let continueWith (gap : Gap) (c : Cursor) : Option (List Char × Cursor) :=
            match Gap.read none (c.rest.length + 1) gap c with
            | none => none
            | some (gap, c) => readQuoted single bound (gap.fold.reverse ++ out) c
          if isBlank x || isBreak x then continueWith .empty c
          else if x == '\\' && !more.isEmpty then
            -- an escaped break: what follows on the next line is joined without a space
            continueWith ⟨[], some ([], [])⟩ (c.skip 1).skipBreak
          else some (out, c.skip 1)

/-! ## Block scalars -/

/-- What becomes of the breaks at the end of a block scalar. -/
inductive Chomp where
  | strip
  | clip
  | keep
  deriving DecidableEq

/-- Skips indentation and empty lines. An indentation of zero is not known yet. Returns the breaks
in reverse, the greatest column seen and the place. -/
private def skipIndent (indent : Nat) : Nat → List Char → Nat → Cursor →
    Option (List Char × Nat × Cursor)
  | 0, breaks, widest, c => some (breaks, widest, c)
  | bound + 1, breaks, widest, c =>
    let short := indent == 0 || c.column < indent
    match c.rest with
    | ' ' :: _ =>
      if short then skipIndent indent bound breaks (max widest (c.column + 1)) (c.skip 1)
      else some (breaks, max widest c.column, c)
    | '\t' :: _ => if short then none else some (breaks, max widest c.column, c)
    | x :: _ =>
      if isBreak x then
        skipIndent indent bound (c.breakChar :: breaks) (max widest c.column) c.skipBreak
      else some (breaks, max widest c.column, c)
    | [] => some (breaks, max widest c.column, c)

/-- Reads the lines of a block scalar. `first` is the break behind the last line, `more` the breaks
behind it in reverse. -/
private def readBlockLines (literal : Bool) (indent : Nat) :
    Nat → List Char → List Char → List Char → Bool → Cursor →
      Option (List Char × List Char × List Char × Cursor)
  | 0, out, first, more, _, c => some (out, first, more, c)
  | bound + 1, out, first, more, lastBlank, c =>
    if c.column != indent || c.rest.isEmpty then some (out, first, more, c)
    else
      let startsBlank := match c.rest with
        | x :: _ => isBlank x
        | [] => false
      let folds := !literal && first == ['\n'] && !lastBlank && !startsBlank
      let joined := if folds then (if more.isEmpty then [' '] else []) else first
      let line := c.rest.takeWhile fun x => !isBreak x
      let out := line.reverse ++ more ++ joined.reverse ++ out
      let c := c.skip line.length
      let (first, c) := if c.atBreak then ([c.breakChar], c.skipBreak) else ([], c)
      match skipIndent indent (c.rest.length + 1) [] 0 c with
      | none => none
      | some (more, _, c) => readBlockLines literal indent bound out first more startsBlank c

/-- Reads the header of a block scalar: how it is chomped and its indentation, if given. -/
private def readBlockHeader (c : Cursor) : Option (Chomp × Nat × Cursor) :=
  let chomp? (x : Char) : Option Chomp :=
    if x == '+' then some .keep else if x == '-' then some .strip else none
  let (chomp, indent, n) : Chomp × Option Nat × Nat := match c.rest with
    | x :: y :: _ =>
      match chomp? x with
      | some k => if y.isDigit then (k, some (digitValue y), 2) else (k, none, 1)
      | none =>
        if x.isDigit then
          match chomp? y with
          | some k => (k, some (digitValue x), 2)
          | none => (.clip, some (digitValue x), 1)
        else (.clip, none, 0)
    | [x] =>
      match chomp? x with
      | some k => (k, none, 1)
      | none => if x.isDigit then (.clip, some (digitValue x), 1) else (.clip, none, 0)
    | [] => (.clip, none, 0)
  if indent == some 0 then none
  else
    let c := c.skip n
    let c := c.skip (c.rest.takeWhile isBlank).length
    let c := match c.rest with
      | '#' :: _ => c.skipLine
      | _ => c
    if c.rest.isEmpty then some (chomp, indent.getD 0, c)
    else if c.atBreak then some (chomp, indent.getD 0, c.skipBreak)
    else none

/-- Reads a block scalar behind its mark. -/
private def readBlock (literal : Bool) (outer : Int) (c : Cursor) : Option (String × Cursor) := do
  let (chomp, given, c) ← readBlockHeader c
  let indent : Nat := if given == 0 then 0 else (max outer 0).toNat + given
  let (more, widest, c) ← skipIndent indent (c.rest.length + 1) [] 0 c
  let indent := if indent == 0 then max (max widest (outer + 1).toNat) 1 else indent
  let (out, first, more, c) ←
    readBlockLines literal indent (c.rest.length + 1) [] [] more false c
  let tail := match chomp with
    | .strip => []
    | .clip => first
    | .keep => more ++ first
  some (String.ofList (tail ++ out).reverse, c)

/-! ## Anchors, tags and directives -/

/-- Characters of anchors and handles. -/
private def isNameChar (c : Char) : Bool := c.isAlphanum || c == '_' || c == '-'

/-- Reads the name of an anchor or alias behind its mark. -/
private def readAnchor (c : Cursor) : Option (String × Cursor) :=
  let name := c.rest.takeWhile isNameChar
  let c' := c.skip name.length
  let closed := blankNext c'.rest || (match c'.rest with
    | x :: _ => "?:,]\x7d%@\x60".toList.contains x
    | [] => true)
  if name.isEmpty || !closed then none else some (String.ofList name, c')

/-- Characters of tags. -/
private def isTagChar (c : Char) : Bool :=
  isNameChar c || ";/?:@&=+$.!~*'()%".toList.contains c

/-- Reads a tag, its exclamation mark included: its handle and the rest of its name. -/
private def readTag (inFlow : Bool) (c : Cursor) : Option (String × String × Cursor) := do
  let (handle, suffix, n) ← match c.rest with
    | '!' :: '<' :: rest =>
      let uri := rest.takeWhile (· != '>')
      if uri.length < rest.length && !uri.isEmpty then
        some ("", String.ofList uri, uri.length + 3)
      else none
    | _ :: rest =>
      let name := rest.takeWhile isNameChar
      match rest.drop name.length with
      | '!' :: rest' =>
        let suffix := rest'.takeWhile isTagChar
        if suffix.isEmpty then none
        else some ("!" ++ String.ofList name ++ "!", String.ofList suffix,
          name.length + suffix.length + 2)
      | _ =>
        let suffix := rest.takeWhile isTagChar
        if suffix.isEmpty then some ("", "!", 1)
        else some ("!", String.ofList suffix, suffix.length + 1)
    | [] => none
  let c := c.skip n
  let closed := blankNext c.rest || (inFlow && c.rest.head? == some ',')
  if closed then some (handle, suffix, c) else none

/-- Reads a directive behind its percent sign. Unknown ones are passed over. -/
private def readDirective (c : Cursor) : Option (Option Token × Cursor) := do
  let line := c.rest.takeWhile fun x => !isBreak x
  let words := ((String.ofList line).splitOn " ").filter (· != "")
  let words := words.takeWhile fun w => !w.startsWith "#"
  let after := c.skip line.length
  let after := if after.atBreak then after.skipBreak else after
  match words with
  | ["YAML", version] =>
    match version.splitOn "." with
    | [a, b] =>
      match readNat? a.toList, readNat? b.toList with
      | some major, some minor => some (some (.version major minor), after)
      | _, _ => none
    | _ => none
  | "YAML" :: _ => none
  | ["TAG", handle, expansion] => some (some (.tagHandle handle expansion), after)
  | "TAG" :: _ => none
  | [] => none
  | _ => some (none, after)

/-! ## Finding tokens -/

/-- Adds a token that may be a key or begin one, and is followed by no key on the same line. -/
private def keyLike (s : ScanState) (read : ScanState → Option ScanState) : Option ScanState := do
  let s ← s.noteKey
  read { s with keyAllowed := false }

/-- Adds the mark of a key or value, opening a mapping where one begins. -/
private def explicitMark (s : ScanState) (t : Token) : Option ScanState :=
  if !s.inFlow && !s.keyAllowed then none
  else
    let s := s.openBlock s.cursor.column s.tokens.size .blockMap
    some { s.accept 1 t with keyAllowed := !s.inFlow }

/-- Adds the mark of a value; a possible key before it becomes a key. -/
private def valueMark (s : ScanState) : Option ScanState :=
  match s.possibleKey with
  | some k =>
    let s := s.insertToken k.token .key
    let s := s.openBlock k.column k.token .blockMap
    some { s.accept 1 .value with possibleKey := none, keyAllowed := false }
  | none => explicitMark s .value

/-- Whether a plain scalar may begin with these characters. -/
private def startsPlain (inFlow : Bool) : List Char → Bool
  | [] => false
  | c :: rest =>
    if c == '-' then
      match rest with
      | d :: _ => !isBlank d
      | [] => true
    else if c == '?' || c == ':' then !inFlow && !blankNext rest
    else !(isBlank c || isBreak c || ",[]\x7b\x7d#&*!|>'\"%@\x60".toList.contains c)

/-- Finds the next token; the flag says whether the text has ended. -/
private def scanStep (s : ScanState) : Option (Bool × ScanState) := do
  let s := skipToToken (s.cursor.rest.length + 1) s
  let s ← s.dropStaleKey
  let s := s.unwind s.cursor.column
  let more (s : Option ScanState) : Option (Bool × ScanState) := s.map (false, ·)
  let c := s.cursor
  match c.rest with
  | [] =>
    let s ← (s.unwind (-1)).dropKey
    some (true, s)
  | x :: rest =>
    let flowOpen (t : Token) : Option ScanState := do
      let s ← s.noteKey
      let s := s.accept 1 t
      some { s with keyAllowed := true, outerKeys := s.possibleKey :: s.outerKeys,
                    possibleKey := none }
    let flowClose (t : Token) : Option ScanState := do
      let s ← s.dropKey
      let s := s.accept 1 t
      match s.outerKeys with
      | k :: outer => some { s with keyAllowed := false, possibleKey := k, outerKeys := outer }
      | [] => some { s with keyAllowed := false }
    if x == '%' && c.column == 0 then
      more do
        let s ← (s.unwind (-1)).dropKey
        let (t, c) ← readDirective (c.skip 1)
        let s := match t with
          | some t => s.push t
          | none => s
        some { s with cursor := c, keyAllowed := false }
    else if c.atDocumentMark then
      more do
        let s ← (s.unwind (-1)).dropKey
        let t := if x == '-' then Token.documentStart else Token.documentEnd
        some { s.accept 3 t with keyAllowed := false }
    else if x == '[' then more (flowOpen .flowList)
    else if x == '{' then more (flowOpen .flowMap)
    else if x == ']' then more (flowClose .flowListEnd)
    else if x == '}' then more (flowClose .flowMapEnd)
    else if x == ',' then
      more do
        let s ← s.dropKey
        some { s.accept 1 .comma with keyAllowed := true }
    else if x == '-' && blankNext rest then
      more do
        if !s.inFlow && !s.keyAllowed then none
        else
          let s ← (s.openBlock c.column s.tokens.size .blockList).dropKey
          some { s.accept 1 .entry with keyAllowed := true }
    else if x == '?' && (s.inFlow || blankNext rest) then
      more do
        let s ← explicitMark s .key
        s.dropKey
    else if x == ':' && (s.inFlow || blankNext rest) then more (valueMark s)
    else if x == '*' then
      more <| keyLike s fun s => do
        let (name, c) ← readAnchor (s.cursor.skip 1)
        some { s.push (.reference name) with cursor := c }
    else if x == '&' then
      more <| keyLike s fun s => do
        let (name, c) ← readAnchor (s.cursor.skip 1)
        some { s.push (.anchor name) with cursor := c }
    else if x == '!' then
      more <| keyLike s fun s => do
        let (handle, suffix, c) ← readTag s.inFlow s.cursor
        some { s.push (.tag handle suffix) with cursor := c }
    else if (x == '|' || x == '>') && !s.inFlow then
      more do
        let s ← s.dropKey
        let (text, c) ← readBlock (x == '|') s.indent (c.skip 1)
        some { s.push (.scalar text false) with cursor := c, keyAllowed := true }
    else if x == '\'' || x == '"' then
      more <| keyLike s fun s => do
        let (out, c) ← readQuoted (x == '\'') (s.cursor.rest.length + 1) [] (s.cursor.skip 1)
        some { s.push (.scalar (String.ofList out.reverse) false) with cursor := c }
    else if startsPlain s.inFlow c.rest then
      more <| keyLike s fun s => do
        let (out, c, crossed) ←
          readPlain s.inFlow (s.indent + 1).toNat (s.cursor.rest.length + 1) Gap.empty [] s.cursor
        let s := s.push (.scalar (String.ofList out.reverse) true)
        some { s with cursor := c, keyAllowed := s.keyAllowed || crossed }
    else none

/-- Finds all tokens, in at most the given number of steps. -/
private def scanAll : Nat → ScanState → Option (List Token)
  | 0, _ => none
  | bound + 1, s =>
    match scanStep s with
    | none => none
    | some (true, s) => some s.tokens.toList
    | some (false, s) => scanAll bound s

/-- The tokens of a text; `none` if it is not well formed. -/
def Token.scan (text : String) : Option (List Token) :=
  let cs := match text.toList with
    | c :: rest => if c.toNat == 0xfeff then rest else c :: rest
    | [] => []
  if !cs.all isAllowed then none
  else scanAll (2 * cs.length + 4) ⟨⟨cs, 0, 0, 0⟩, #[], -1, [], true, none, []⟩

end SoftwareCensus.Yaml
