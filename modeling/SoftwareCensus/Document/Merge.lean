import SoftwareCensus.Document.Basic

/-!
# Merging

Putting one mapping over another: mappings merge key by key, lists combine by a policy, and in any
other collision the new value wins. `mergeFields` takes a shortcut when the merge is known
beforehand; `plainMerge` goes through every key.
-/

namespace SoftwareCensus

/-- How two lists under one key combine. -/
inductive ListMerge where
  | replace
  | keep
  | append
  | prepend
  /-- The old items that are not new ones, then the new ones. -/
  | appendRp
  /-- The new items, then the old ones that are not among them. -/
  | prependRp
  deriving DecidableEq, Inhabited, Repr

namespace ListMerge

/-- All policies. -/
def all : List ListMerge := [replace, keep, append, prepend, appendRp, prependRp]

/-- The name of a policy. -/
def name : ListMerge → String
  | replace => "replace"
  | keep => "keep"
  | append => "append"
  | prepend => "prepend"
  | appendRp => "append_rp"
  | prependRp => "prepend_rp"

/-- The policy of a name. -/
def ofName (s : String) : Except String ListMerge :=
  match all.find? (·.name == s) with
  | some policy => .ok policy
  | none => .error ("invalid list merge policy '" ++ s ++ "': expected one of " ++
      ", ".intercalate (all.map name))

/-- The items that are not in a list. -/
def without (items others : List Document) : List Document :=
  items.filter fun x => !others.any (· == x)

/-- Combines an old and a new list. -/
def combine (policy : ListMerge) (old new : List Document) : List Document :=
  match policy with
  | replace => new
  | keep => old
  | append => old ++ new
  | prepend => new ++ old
  | appendRp => without old new ++ new
  | prependRp => new ++ without old new

end ListMerge

namespace Document

/-! ## The merge with a shortcut -/

mutual

/-- Merges the entries of an update into a mapping, one after another. -/
def mergeEntries (policy : ListMerge) (base : Fields) : List (String × Document) → Fields
  | [] => base
  | (k, v) :: rest =>
    mergeEntries policy (base.insert k (mergeValue policy (base.get? k) v)) rest

/-- The value for a key, given what the mapping had there. Two mappings merge; the update is taken
as it is when the mapping is empty or equal to it. -/
def mergeValue (policy : ListMerge) (old : Option Document) : Document → Document
  | map update => match old with
    | some (map base) =>
      if base.isEmpty || sameFields base update then map update
      else map (mergeEntries policy base update)
    | _ => map update
  | list new => match old with
    | some (list items) => list (policy.combine items new)
    | _ => list new
  | v => v

end

/-- Merges an update into a mapping. -/
def mergeFields (policy : ListMerge) (base update : Fields) : Fields :=
  if base.isEmpty || sameFields base update then update else mergeEntries policy base update

/-- Merges an update into a value. What is no mapping is replaced. -/
def mergeInto (policy : ListMerge) (target : Document) (update : Fields) : Document :=
  match target with
  | map base => map (mergeFields policy base update)
  | _ => map update

/-! ## The merge without a shortcut -/

mutual

/-- Merges every entry of an update into a mapping. -/
def plainMerge (policy : ListMerge) (base : Fields) : List (String × Document) → Fields
  | [] => base
  | (k, v) :: rest =>
    plainMerge policy (base.insert k (plainMergeValue policy (base.get? k) v)) rest

/-- The value for a key, given what the mapping had there. -/
def plainMergeValue (policy : ListMerge) (old : Option Document) : Document → Document
  | map update => match old with
    | some (map base) => map (plainMerge policy base update)
    | _ => map update
  | list new => match old with
    | some (list items) => list (policy.combine items new)
    | _ => list new
  | v => v

end

end Document

end SoftwareCensus
