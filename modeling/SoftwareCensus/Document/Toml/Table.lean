import SoftwareCensus.Document.Source

/-!
# Tables of TOML

The tables that headers and dotted keys make. A table that exists only because of what is inside it
can still be given a header, and one that dotted keys made can take more dotted keys; nothing else
is defined twice.
-/

namespace SoftwareCensus.Toml

/-- What stands under a key. The entries of a table are in the order in which they were made. -/
inductive Node where
  | value (s : Source)
  /-- A table; `implicit` if no header named it yet, `dotted` if a dotted key made it. -/
  | table (implicit dotted : Bool) (entries : List (String × Node))
  /-- The tables of a list, latest first. -/
  | tables (items : List (List (String × Node)))
  deriving Inhabited

/-- A table. -/
structure Table where
  implicit : Bool := false
  dotted : Bool := false
  entries : List (String × Node) := []
  deriving Inhabited

namespace Table

/-- What stands under a key. -/
def get? (t : Table) (key : String) : Option Node :=
  (t.entries.find? (·.1 == key)).map (·.2)

/-- Puts something under a key that is not there. -/
def add (t : Table) (key : String) (n : Node) : Table :=
  { t with entries := t.entries ++ [(key, n)] }

/-- Puts something else under a key. -/
def replace (t : Table) (key : String) (n : Node) : Table :=
  { t with entries := t.entries.map fun (k, m) => if k == key then (k, n) else (k, m) }

/-- A table as what stands under a key. -/
def node (t : Table) : Node := .table t.implicit t.dotted t.entries

/-- Changes the table that a path leads to. Tables that are missing on the way are made. A path of
dotted keys does not go through tables that a header named. -/
def change (dotted : Bool) (f : Table → Option Table) (t : Table) : List String → Option Table
  | [] => f t
  | key :: rest =>
    match t.get? key with
    | none =>
      (change dotted f { implicit := true, dotted } rest).map fun inner => t.add key inner.node
    | some (.value _) => none
    | some (.table implicit isDotted entries) =>
      if dotted && !implicit then none
      else (change dotted f ⟨implicit, isDotted, entries⟩ rest).map fun inner =>
        t.replace key inner.node
    | some (.tables []) => none
    | some (.tables (latest :: others)) =>
      (change dotted f { entries := latest } rest).map fun inner =>
        t.replace key (.tables (inner.entries :: others))

/-- Puts a value under a key of a table that is reached by dotted keys, or directly. -/
def define (key : String) (s : Source) (direct : Bool) (t : Table) : Option Table :=
  if t.dotted == direct || (t.get? key).isSome then none else some (t.add key (.value s))

/-- Puts a value under a dotted key. -/
def assign (t : Table) (path : List String) (key : String) (s : Source) : Option Table :=
  t.change true (define key s path.isEmpty) path

/-- Gives a table a header. -/
def openTable (t : Table) (path : List String) (key : String) : Option Table :=
  t.change false (fun parent => match parent.get? key with
    | none => some (parent.add key (.table false false []))
    | some (.table true false entries) => some (parent.replace key (.table false false entries))
    | some _ => none) path

/-- Adds a table to a list of tables. -/
def openItem (t : Table) (path : List String) (key : String) : Option Table :=
  t.change false (fun parent => match parent.get? key with
    | none => some (parent.add key (.tables [[]]))
    | some (.tables items) => some (parent.replace key (.tables ([] :: items)))
    | some _ => none) path

end Table

mutual

/-- The source of what stands under a key. -/
def Node.toSource : Node → Source
  | .value s => s
  | .table _ _ entries => .map (Node.toEntries entries)
  | .tables items => .list (Node.toItems items).reverse

/-- The sources of the entries of a table. -/
def Node.toEntries : List (String × Node) → List (Source × Source)
  | [] => []
  | (k, n) :: rest => (.str k, Node.toSource n) :: Node.toEntries rest

/-- The sources of the tables of a list. -/
def Node.toItems : List (List (String × Node)) → List Source
  | [] => []
  | entries :: rest => .map (Node.toEntries entries) :: Node.toItems rest

end

end SoftwareCensus.Toml
