import SoftwareCensus.Document.Source
import SoftwareCensus.Numeral.Decimal

/-!
# Decoding sources

Reading a source as what a record asks for. A scalar without quotes becomes what is asked for, so
that a number is a text where a text is wanted; an empty scalar is also an empty list and an empty
mapping. `none` means that the source has no such reading.
-/

namespace SoftwareCensus.Source

open Numeral

/-! ## Scalars -/

/-- A text. -/
def text? : Source → Option String
  | .str s => some s
  | .plain s => some s
  | _ => none

/-- Whether this is nothing at all. -/
def isAbsent : Source → Bool
  | .null => true
  | .plain s => isNullWord s
  | _ => false

/-- Reads a source that may be nothing. -/
def optional {α : Type} (read : Source → Option α) (s : Source) : Option (Option α) :=
  if s.isAbsent then some none else (read s).map some

/-- A boolean. -/
def bool? : Source → Option Bool
  | .bool b => some b
  | .plain s => boolWord? s
  | _ => none

/-- An integer. -/
def int? : Source → Option Int
  | .int n => some n
  | .plain s => intWord? s
  | _ => none

/-- A natural number up to a bound. -/
def nat? (most : Nat) (s : Source) : Option Nat :=
  s.int?.bind fun n => if 0 ≤ n && n ≤ most then some n.toNat else none

/-! ## Lists and mappings -/

/-- The items of a list. -/
def items? : Source → Option (List Source)
  | .list items => some items
  | .plain "" => some []
  | _ => none

/-- The entries of a mapping. -/
def entries? : Source → Option (List (Source × Source))
  | .map entries => some entries
  | .plain "" => some []
  | _ => none

/-- A list of things. -/
def listOf? {α : Type} (read : Source → Option α) (s : Source) : Option (List α) :=
  s.items?.bind fun items => items.mapM read

/-- A mapping to documents of any shape. -/
def fields? (s : Source) : Option Fields :=
  s.entries?.bind fun entries => toFields? entries []

mutual

/-- Whether no part is foreign. -/
def isNative : Source → Bool
  | .foreign => false
  | .list items => areNative items
  | .map entries => areNativeEntries entries
  | .plain s => match settle s with
    | .foreign => false
    | _ => true
  | _ => true

/-- Whether no part of these is foreign. -/
def areNative : List Source → Bool
  | [] => true
  | s :: rest => isNative s && areNative rest

/-- Whether no part of these entries is foreign. -/
def areNativeEntries : List (Source × Source) → Bool
  | [] => true
  | (k, v) :: rest => isNative k && isNative v && areNativeEntries rest

end

/-- The source with all scalars settled; one with foreign parts cannot be. -/
def settled? (s : Source) : Option Source := if s.isNative then some s.toEager else none

/-! ## Records -/

/-- The entries of a mapping that is read as a record: those of known fields, and the others in
their order. -/
structure Record where
  known : List (String × Source)
  others : List (Source × Source)

namespace Record

/-- Sorts an entry into a record; no field may be given twice. -/
def add? (names : List String) (r : Record) (entry : Source × Source) : Option Record :=
  match entry.1.asKey? with
  | some key =>
    if !names.contains key then some { r with others := r.others ++ [entry] }
    else if r.known.any (·.1 == key) then none
    else some { r with known := r.known ++ [(key, entry.2)] }
  | none => none

/-- Sorts the entries of a mapping into fields, of which none may be given twice. -/
def ofEntries? (names : List String) (entries : List (Source × Source)) : Option Record :=
  entries.foldlM (add? names) ⟨[], []⟩

/-- The field of a name. -/
def get? (r : Record) (name : String) : Option Source := (r.known.find? (·.1 == name)).map (·.2)

/-- A field that has to be there. -/
def required {α : Type} (r : Record) (name : String) (read : Source → Option α) : Option α :=
  (r.get? name).bind read

/-- A field that has a value without being there. -/
def withDefault {α : Type} (r : Record) (name : String) (default : α) (read : Source → Option α) :
    Option α :=
  match r.get? name with
  | some s => read s
  | none => some default

/-- A field that may be missing or nothing. -/
def optional {α : Type} (r : Record) (name : String) (read : Source → Option α) :
    Option (Option α) :=
  r.withDefault name none (Source.optional read)

end Record

/-- A record written as a mapping, or as a list of its fields in order. -/
def record? (names : List String) : Source → Option Record
  | .list items =>
    if items.length ≤ names.length then some ⟨names.zip items, []⟩ else none
  | s => s.entries?.bind (Record.ofEntries? names)

/-- A word out of several; it may also be the only key of a mapping to nothing. -/
def choice? {α : Type} (words : List (String × α)) (s : Source) : Option α :=
  let word? := match s with
    | .map [(k, v)] => if v.isAbsent then k.asKey? else none
    | s => s.text?
  word?.bind fun word => (words.find? (·.1 == word)).map (·.2)

end SoftwareCensus.Source
