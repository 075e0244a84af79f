import SoftwareCensus.Document.Source
import SoftwareCensus.Document.Yaml.Token

/-!
# Reading YAML

The tokens of a text are read by the grammar of YAML 1.1 into a source. Aliases are replaced by
what they stand for; a text that nests too deep or repeats too much through aliases is refused, and
so is one with more than one document.
-/

namespace SoftwareCensus.Yaml

/-- A node that has been read, with what limits apply to: the depth of its collections, the number
of its parts as written, and the number of aliases in it when all are replaced. -/
structure Node where
  source : Source
  depth : Nat
  parts : Nat
  jumps : Nat
  deriving Inhabited

/-- What the reader knows: the tokens left, the anchors and the tag handles. -/
structure NodeState where
  tokens : List Token
  anchors : List (String × Node)
  handles : List (String × String)

/-- A step of the reader. -/
abbrev ReadNode := StateT NodeState Option

namespace Node

/-- How deep collections may nest. -/
def maxDepth : Nat := 128

/-- A scalar. -/
def scalar (s : Source) : Node := ⟨s, 0, 1, 0⟩

/-- What stands where a value is missing. -/
def missing : Node := scalar (.plain "")

/-- A list of nodes. -/
def list (items : List Node) : Node :=
  ⟨.list (items.map (·.source)), items.foldl (fun d n => max d n.depth) 0 + 1,
    items.foldl (fun k n => k + n.parts) 2, items.foldl (fun k n => k + n.jumps) 0⟩

/-- A mapping of nodes. -/
def map (entries : List (Node × Node)) : Node :=
  ⟨.map (entries.map fun (k, v) => (k.source, v.source)),
    entries.foldl (fun d (k, v) => max d (max k.depth v.depth)) 0 + 1,
    entries.foldl (fun n (k, v) => n + k.parts + v.parts) 2,
    entries.foldl (fun n (k, v) => n + k.jumps + v.jumps) 0⟩

/-- Applies a tag. Tags of the application make a value foreign; those of the language settle the
type of scalars and say nothing about collections. -/
def tagged (tag : String) (n : Node) : Node :=
  if tag.startsWith "!" then { n with source := .foreign }
  else
    let letters? : Option String := match n.source with
      | .plain s => some s
      | .str s => some s
      | _ => none
    match letters? with
    | none => n
    | some s =>
      let settled : Source :=
        if tag == "tag:yaml.org,2002:bool" then
          match Source.boolWord? s with
          | some b => .bool b
          | none => .foreign
        else if tag == "tag:yaml.org,2002:int" then
          match Source.intWord? s with
          | some i => if Numeral.fits64 i then .int i else .foreign
          | none => .foreign
        else if tag == "tag:yaml.org,2002:float" then
          match Source.floatWord? s with
          | some x => .float x
          | none => .foreign
        else if tag == "tag:yaml.org,2002:null" then
          if Source.isNullWord s then .null else .foreign
        else .str s
      { n with source := settled }

end Node

/-- The next token, which stays. -/
private def peek : ReadNode (Option Token) := do return (← get).tokens.head?

/-- Takes the next token. -/
private def drop : ReadNode Unit := modify fun s => { s with tokens := s.tokens.drop 1 }

/-- Takes the next token if it is this one; says whether it was. -/
private def skip (t : Token) : ReadNode Bool := do
  if (← peek) == some t then
    drop
    return true
  else return false

/-- Whether the next token is one of these, or there is none. -/
private def nextIn (ts : List Token) : ReadNode Bool := do
  match ← peek with
  | some t => return ts.contains t
  | none => return true

/-- What precedes the content of a node. -/
structure Properties where
  anchor : Option String
  tag : Option String

/-- Reads anchor and tag, in either order. -/
private def readProperties : Nat → Properties → ReadNode Properties
  | 0, p => return p
  | bound + 1, p => do
    match ← peek with
    | some (.anchor name) =>
      if p.anchor.isSome then return p
      drop
      readProperties bound { p with anchor := some name }
    | some (.tag handle suffix) =>
      if p.tag.isSome then return p
      drop
      if handle == "" then readProperties bound { p with tag := some suffix }
      else
        match (← get).handles.find? (·.1 == handle) with
        | some (_, expansion) => readProperties bound { p with tag := some (expansion ++ suffix) }
        | none => failure
    | _ => return p

mutual

/-- Reads a node. Block collections are read only where `block` allows them, lists without
indentation of their own only where `flat` does. -/
private def readNode (fuel : Nat) (block flat : Bool) : ReadNode Node :=
  match fuel with
  | 0 => failure
  | fuel + 1 => do
    match ← peek with
    | some (.reference name) =>
      drop
      match (← get).anchors.find? (·.1 == name) with
      | some (_, n) => return { n with parts := 1, jumps := n.jumps + 1 }
      | none => failure
    | _ =>
      let p ← readProperties 2 ⟨none, none⟩
      match p.anchor with
      | some a => modify fun s => { s with anchors := s.anchors.filter (·.1 != a) }
      | none => pure ()
      let n ← readContent fuel block flat p
      let n := match p.tag with
        | some t => n.tagged t
        | none => n
      match p.anchor with
      | some a => modify fun s => { s with anchors := (a, n) :: s.anchors }
      | none => pure ()
      return n

/-- Reads the content of a node. -/
private def readContent (fuel : Nat) (block flat : Bool) (p : Properties) : ReadNode Node :=
  match fuel with
  | 0 => failure
  | fuel + 1 => do
    match ← peek with
    | some .entry =>
      if flat then return .list (← readFlatList fuel [])
      else if p.anchor.isSome || p.tag.isSome then return .missing
      else failure
    | some (.scalar text isPlain) =>
      drop
      return .scalar (if isPlain then .plain text else .str text)
    | some .flowList =>
      drop
      return .list (← readFlowList fuel [])
    | some .flowMap =>
      drop
      return .map (← readFlowMap fuel [])
    | some .blockList =>
      if block then
        drop
        return .list (← readBlockList fuel [])
      else failure
    | some .blockMap =>
      if block then
        drop
        return .map (← readBlockMap fuel [])
      else failure
    | _ => if p.anchor.isSome || p.tag.isSome then return .missing else failure

/-- Reads the items of a block list up to its end. -/
private def readBlockList (fuel : Nat) (acc : List Node) : ReadNode (List Node) :=
  match fuel with
  | 0 => failure
  | fuel + 1 => do
    if ← skip .blockEnd then return acc.reverse
    if !(← skip .entry) then failure
    let n ← if ← nextIn [.entry, .blockEnd] then pure .missing else readNode fuel true false
    readBlockList fuel (n :: acc)

/-- Reads the items of a list that has no indentation of its own. -/
private def readFlatList (fuel : Nat) (acc : List Node) : ReadNode (List Node) :=
  match fuel with
  | 0 => failure
  | fuel + 1 => do
    if !(← skip .entry) then return acc.reverse
    let n ← if ← nextIn [.entry, .key, .value, .blockEnd] then pure .missing
      else readNode fuel true false
    readFlatList fuel (n :: acc)

/-- Reads the entries of a block mapping up to its end. -/
private def readBlockMap (fuel : Nat) (acc : List (Node × Node)) : ReadNode (List (Node × Node)) :=
  match fuel with
  | 0 => failure
  | fuel + 1 => do
    if ← skip .blockEnd then return acc.reverse
    if !(← skip .key) then failure
    let k ← if ← nextIn [.key, .value, .blockEnd] then pure .missing else readNode fuel true true
    let v ← if ← skip .value then
        if ← nextIn [.key, .value, .blockEnd] then pure .missing else readNode fuel true true
      else pure .missing
    readBlockMap fuel ((k, v) :: acc)

/-- Reads the items of a flow list up to its closing bracket. -/
private def readFlowList (fuel : Nat) (acc : List Node) : ReadNode (List Node) :=
  match fuel with
  | 0 => failure
  | fuel + 1 => do
    if ← skip .flowListEnd then return acc.reverse
    if !acc.isEmpty && !(← skip .comma) then failure
    if !acc.isEmpty && (← skip .flowListEnd) then return acc.reverse
    if ← skip .key then
      let k ← if ← nextIn [.value, .comma, .flowListEnd] then pure .missing
        else readNode fuel false false
      let v ← if ← skip .value then
          if ← nextIn [.comma, .flowListEnd] then pure .missing else readNode fuel false false
        else pure .missing
      readFlowList fuel (.map [(k, v)] :: acc)
    else
      let n ← readNode fuel false false
      readFlowList fuel (n :: acc)

/-- Reads the entries of a flow mapping up to its closing brace. -/
private def readFlowMap (fuel : Nat) (acc : List (Node × Node)) : ReadNode (List (Node × Node)) :=
  match fuel with
  | 0 => failure
  | fuel + 1 => do
    if ← skip .flowMapEnd then return acc.reverse
    if !acc.isEmpty && !(← skip .comma) then failure
    if !acc.isEmpty && (← skip .flowMapEnd) then return acc.reverse
    if ← skip .key then
      let k ← if ← nextIn [.value, .comma, .flowMapEnd] then pure .missing
        else readNode fuel false false
      let v ← if ← skip .value then
          if ← nextIn [.comma, .flowMapEnd] then pure .missing else readNode fuel false false
        else pure .missing
      readFlowMap fuel ((k, v) :: acc)
    else
      let k ← readNode fuel false false
      readFlowMap fuel ((k, .missing) :: acc)

end

/-- Reads the directives before a document. -/
private def readDirectives : Nat → Bool → ReadNode Bool
  | 0, any => return any
  | bound + 1, any => do
    match ← peek with
    | some (.version major minor) =>
      if major != 1 || (minor != 1 && minor != 2) then failure
      drop
      readDirectives bound true
    | some (.tagHandle handle expansion) =>
      drop
      modify fun s => { s with handles := (handle, expansion) :: s.handles }
      readDirectives bound true
    | _ => return any

/-- Skips the marks that end a document. -/
private def skipEnds : Nat → ReadNode Unit
  | 0 => return ()
  | bound + 1 => do
    if ← skip .documentEnd then skipEnds bound

/-- Reads the only document of a text; `none` inside when there is no document at all. -/
private def readDocument (fuel : Nat) : ReadNode (Option Node) := do
  skipEnds fuel
  if (← peek).isNone then return none
  let declared ← readDirectives fuel false
  let marked ← skip .documentStart
  if declared && !marked then failure
  let blank ← nextIn [.documentStart, .documentEnd]
  let n ← if marked && blank then pure .missing else readNode fuel true false
  skipEnds fuel
  match ← peek with
  | none => return some n
  | some _ => failure

/-- Reads a text as a source. A text without any document is an empty scalar. -/
def source? (text : String) : Option Source := do
  let tokens ← Token.scan text
  let start : NodeState :=
    ⟨tokens, [], [("!", "!"), ("!!", "tag:yaml.org,2002:")]⟩
  let (n?, _) ← (readDocument (4 * tokens.length + 10)).run start
  match n? with
  | none => some (.plain "")
  | some n =>
    if n.depth > Node.maxDepth || n.jumps > 100 * (n.parts + 2) then none else some n.source

/-- Reads a text as a document. -/
def read? (text : String) : Option Document := (source? text).bind Source.toDocument?

end SoftwareCensus.Yaml
