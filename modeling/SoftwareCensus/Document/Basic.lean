import SoftwareCensus.Numeral.Decimal

/-!
# Documents

The dynamic values that inventories, signatures, facts and task arguments are made of: null,
booleans, integers, doubles, text, lists and mappings from text keys.

A mapping is a list of entries in ascending key order with no key twice. `Fields.insert` keeps
that order and every mapping of this library is built with it, so two mappings with the same
bindings are the same list.
-/

namespace SoftwareCensus

open Numeral

/-- A dynamic value. Integers are those of 64 bits, signed or unsigned. -/
inductive Document where
  | null
  | bool (b : Bool)
  | int (n : Int)
  | float (x : Binary64)
  | str (s : String)
  | list (items : List Document)
  | map (fields : List (String × Document))
  deriving Inhabited

/-- The entries of a mapping, in ascending key order. -/
abbrev Fields := List (String × Document)

namespace Fields

/-- The value stored under a key. -/
def get? (fields : Fields) (key : String) : Option Document :=
  match fields with
  | [] => none
  | (k, v) :: rest => if k == key then some v else get? rest key

/-- Whether a key is bound. -/
def contains (fields : Fields) (key : String) : Bool := (get? fields key).isSome

/-- Binds a key, replacing what it was bound to; the order of the keys is kept. -/
def insert (fields : Fields) (key : String) (value : Document) : Fields :=
  match fields with
  | [] => [(key, value)]
  | (k, v) :: rest =>
    if key < k then (key, value) :: (k, v) :: rest
    else if k == key then (key, value) :: rest
    else (k, v) :: insert rest key value

/-- Unbinds a key. -/
def erase (fields : Fields) (key : String) : Fields :=
  match fields with
  | [] => []
  | (k, v) :: rest => if k == key then rest else (k, v) :: erase rest key

/-- Binds every entry of the second mapping in the first. -/
def extend (fields updates : Fields) : Fields :=
  updates.foldl (fun acc (k, v) => insert acc k v) fields

/-- The mapping with these entries; of entries with one key the last wins. -/
def ofList (entries : List (String × Document)) : Fields := extend [] entries

/-- The keys in ascending order. -/
def keys (fields : Fields) : List String := fields.map (·.1)

end Fields

namespace Document

/-! ## Views -/

/-- The empty mapping. -/
def empty : Document := map []

/-- A mapping with the given entries, in any order. -/
def ofFields (entries : List (String × Document)) : Document := map (Fields.ofList entries)

/-- The text of a text value. -/
def asStr? : Document → Option String
  | str s => some s
  | _ => none

/-- The entries of a mapping. -/
def asMap? : Document → Option Fields
  | map fields => some fields
  | _ => none

/-- The items of a list. -/
def asList? : Document → Option (List Document)
  | list items => some items
  | _ => none

/-- The truth value of a boolean. -/
def asBool? : Document → Option Bool
  | bool b => some b
  | _ => none

/-- Whether this is a mapping. -/
def isMap : Document → Bool
  | map _ => true
  | _ => false

/-- Whether this is null. -/
def isNull : Document → Bool
  | null => true
  | _ => false

/-- The value of a field, when this is a mapping that has it. -/
def field? (d : Document) (key : String) : Option Document :=
  match d with
  | map fields => Fields.get? fields key
  | _ => none

/-- The integer of an integer value in the unsigned 64-bit range. -/
def asUInt64? : Document → Option Nat
  | int n => if 0 ≤ n && n ≤ maxUInt64 then some n.toNat else none
  | _ => none

/-- Text for a value that may be missing, and null otherwise. -/
def ofOption (d : Option Document) : Document := d.getD null

/-- A list of text values. -/
def ofStrings (texts : List String) : Document := list (texts.map str)

/-! ## Equality -/

mutual

/-- Equality of values. Doubles are compared as numbers, and an integer never equals a double. -/
def same : Document → Document → Bool
  | null, null => true
  | bool a, bool b => a == b
  | int a, int b => a == b
  | float a, float b => a.numEq b
  | str a, str b => a == b
  | list as, list bs => sameItems as bs
  | map as, map bs => sameFields as bs
  | _, _ => false

/-- Equality of lists of values, item by item. -/
def sameItems : List Document → List Document → Bool
  | [], [] => true
  | a :: as, b :: bs => same a b && sameItems as bs
  | _, _ => false

/-- Equality of mappings, entry by entry. -/
def sameFields : List (String × Document) → List (String × Document) → Bool
  | [], [] => true
  | (k, a) :: as, (l, b) :: bs => k == l && same a b && sameFields as bs
  | _, _ => false

end

instance : BEq Document := ⟨same⟩

/-! ## Truth -/

/-- Null, false, zero and everything empty are false; all else is true. -/
def isTruthy : Document → Bool
  | null => false
  | bool b => b
  | int n => n != 0
  | float x => !x.isZero
  | str s => s != ""
  | list items => !items.isEmpty
  | map fields => !fields.isEmpty

mutual

/-- How many lists and mappings are inside each other at most. -/
def depth : Document → Nat
  | list items => depthOfItems items + 1
  | map fields => depthOfFields fields + 1
  | _ => 0

/-- The greatest depth of the items of a list. -/
def depthOfItems : List Document → Nat
  | [] => 0
  | d :: rest => max (depth d) (depthOfItems rest)

/-- The greatest depth of the values of a mapping. -/
def depthOfFields : List (String × Document) → Nat
  | [] => 0
  | (_, d) :: rest => max (depth d) (depthOfFields rest)

end

/-! ## Kinds -/

/-- What kind of value this is. -/
def kind : Document → String
  | null => "null"
  | bool _ => "a boolean"
  | int _ | float _ => "a number"
  | str _ => "a string"
  | list _ => "a list"
  | map _ => "a mapping"

end Document

end SoftwareCensus
