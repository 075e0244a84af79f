/-!
# Refused patterns

Why a pattern is refused, and the part of it that is at fault. The message shows the pattern with
that part underlined; a pattern of several lines is shown with their numbers.
-/

namespace SoftwareCensus.Regex

/-! ## Reasons -/

/-- Why a pattern is refused. -/
inductive Reason where
  | unclosedGroup
  | unopenedGroup
  | emptyGroupName
  | badGroupName
  | unclosedGroupName
  | duplicateGroupName
  | lookAround
  | danglingNegation
  | repeatedNegation
  | duplicateFlag
  | unclosedFlags
  | unknownFlag
  | nothingToRepeat
  | unclosedCount
  | emptyCount
  | badNumber
  | badCountRange
  | unclosedClass
  | badClassRange
  | badClassBound
  | badClassEscape
  | unfinishedEscape
  | unknownEscape
  | emptyCode
  | badCode
  | badCodeDigit
  | unclosedBoundary
  | unknownBoundary
  | unfinishedBoundary
  | backreference
  | badProperty
  | unknownProperty
  | notText
  | nestedTooDeep
  | tooLarge
  deriving DecidableEq, Inhabited, Repr

/-- What is wrong, in a few words. -/
def Reason.text : Reason → String
  | unclosedGroup => "unclosed group"
  | unopenedGroup => "unopened group"
  | emptyGroupName => "empty capture group name"
  | badGroupName => "invalid capture group character"
  | unclosedGroupName => "unclosed capture group name"
  | duplicateGroupName => "duplicate capture group name"
  | lookAround => "look-around, including look-ahead and look-behind, is not supported"
  | danglingNegation => "dangling flag negation operator"
  | repeatedNegation => "flag negation operator repeated"
  | duplicateFlag => "duplicate flag"
  | unclosedFlags => "expected flag but got end of regex"
  | unknownFlag => "unrecognized flag"
  | nothingToRepeat => "repetition operator missing expression"
  | unclosedCount => "unclosed counted repetition"
  | emptyCount => "repetition quantifier expects a valid decimal"
  | badNumber => "decimal literal invalid"
  | badCountRange => "invalid repetition count range, the start must be <= the end"
  | unclosedClass => "unclosed character class"
  | badClassRange => "invalid character class range, the start must be <= the end"
  | badClassBound => "invalid range boundary, must be a literal"
  | badClassEscape => "invalid escape sequence found in character class"
  | unfinishedEscape => "incomplete escape sequence, reached end of pattern prematurely"
  | unknownEscape => "unrecognized escape sequence"
  | emptyCode => "hexadecimal literal empty"
  | badCode => "hexadecimal literal is not a Unicode scalar value"
  | badCodeDigit => "invalid hexadecimal digit"
  | unclosedBoundary =>
    "special word boundary assertion is either unclosed or contains an invalid character"
  | unknownBoundary => "unrecognized special word boundary assertion, valid choices are: start, " ++
    "end, start-half or end-half"
  | unfinishedBoundary => "found either the beginning of a special word boundary or a bounded " ++
    "repetition on a \\b with an opening brace, but no closing brace"
  | backreference => "backreferences are not supported"
  | badProperty => "invalid Unicode character class"
  | unknownProperty => "Unicode property not found"
  | notText => "pattern can match invalid UTF-8"
  | nestedTooDeep => "exceed the maximum number of nested parentheses/brackets (250)"
  | tooLarge => "Compiled regex exceeds size limit of 10485760 bytes."

/-! ## Faults -/

/-- A part of a pattern: how many characters there are from its start, and from its end, to the end
of the pattern. -/
structure Part where
  start : Nat
  stop : Nat
  deriving DecidableEq, Inhabited, Repr

/-- Why a pattern is refused, and where. -/
structure Fault where
  reason : Reason
  part : Part
  /-- A part before it with which it is in conflict. -/
  rival : Option Part := none
  deriving DecidableEq, Inhabited, Repr

/-! ## Messages -/

/-- A line and a column of a text, both from one. -/
structure Place where
  line : Nat
  column : Nat
  deriving DecidableEq, Inhabited, Repr

/-- The place behind the first characters of a text. -/
def placeBehind (count : Nat) (cs : List Char) : Place :=
  (cs.take count).foldl (fun p c => if c == '\n' then ⟨p.line + 1, 1⟩ else ⟨p.line, p.column + 1⟩)
    ⟨1, 1⟩

/-- The lines of a text, without the characters that end them. -/
def linesOf (cs : List Char) : List String :=
  let lines := (String.ofList cs).splitOn "\n"
  let lines := if lines.getLast? == some "" then lines.dropLast else lines
  lines.map fun l => if l.endsWith "\r" then (l.dropEnd 1).toString else l

/-- Underlines columns of a line, from a column on. The columns are in ascending order. -/
def underline (column : Nat) : List (Nat × Nat) → String
  | [] => ""
  | (start, stop) :: rest =>
    let length := max 1 (stop - start)
    String.ofList (List.replicate (start - column) ' ' ++ List.replicate length '^') ++
      underline (max column start + length) rest

/-- The number of a line in so many columns. -/
def lineNumber (width n : Nat) : String :=
  let digits := toString n
  "".pushn ' ' (width - digits.length) ++ digits

namespace Fault

/-- The places at which the parts at fault start and end, in ascending order. -/
def places (f : Fault) (cs : List Char) : List (Place × Place) :=
  let placesOf (p : Part) : Place × Place :=
    (placeBehind (cs.length - p.start) cs, placeBehind (cs.length - p.stop) cs)
  let comesFirst (a b : Place × Place) : Bool :=
    a.1.line < b.1.line || (a.1.line == b.1.line && a.1.column ≤ b.1.column)
  ((f.part :: f.rival.toList).map placesOf).mergeSort comesFirst

/-- A pattern with the parts at fault underlined. -/
def shown (f : Fault) (cs : List Char) : String :=
  let count := (String.ofList cs).splitOn "\n" |>.length
  let width := if count ≤ 1 then 0 else (toString count).length
  let places := f.places cs
  String.join ((linesOf cs).zipIdx.map fun (line, i) =>
    let margin := if width == 0 then "    " else lineNumber width (i + 1) ++ ": "
    let here := places.filter fun (a, b) => a.line == i + 1 && b.line == i + 1
    let note := if here.isEmpty then ""
      else
        let columns := here.map fun (a, b) => (a.column, b.column)
        "".pushn ' ' margin.length ++ underline 1 columns ++ "\n"
    margin ++ line ++ "\n" ++ note)

/-- What is said about parts that go over several lines. -/
def notes (f : Fault) (cs : List Char) : String :=
  let wide := (f.places cs).filter fun (a, b) => a.line != b.line
  if wide.isEmpty then ""
  else "\n".intercalate (wide.map fun (a, b) =>
    "on line " ++ toString a.line ++ " (column " ++ toString a.column ++ ") through line " ++
      toString b.line ++ " (column " ++ toString (b.column - 1) ++ ")") ++ "\n"

/-- The message for a refused pattern. -/
def message (pattern : String) (f : Fault) : String :=
  if f.reason == .tooLarge then f.reason.text
  else
    let cs := pattern.toList
    let divider := if cs.contains '\n' then "".pushn '~' 79 ++ "\n" else ""
    "regex parse error:\n" ++ divider ++ f.shown cs ++ divider ++
      (if cs.contains '\n' then f.notes cs else "") ++ "error: " ++ f.reason.text

end Fault

/-- Refuses a pattern for what stands between two places of it, given by what follows each. -/
def refuse {α : Type} (reason : Reason) (start stop : List Char) : Except Fault α :=
  .error ⟨reason, ⟨start.length, stop.length⟩, none⟩

end SoftwareCensus.Regex
