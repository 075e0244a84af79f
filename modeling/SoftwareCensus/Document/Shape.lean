import SoftwareCensus.Document.Basic

/-!
# Flattening and combining

Lists within lists made into one list, and mappings put over mappings at every depth.
-/

namespace SoftwareCensus.Document

/-! ## Flattening -/

mutual

/-- The items of a list with the lists in it unpacked, down to a number of levels or to the
bottom. Nulls are left out. -/
def flattenItems (levels : Option Int) : List Document → List Document
  | [] => []
  | d :: rest => flattenItem levels d ++ flattenItems levels rest

/-- The items that stand for one item in a flattened list. -/
def flattenItem (levels : Option Int) : Document → List Document
  | list inner =>
    if levels.all (0 < ·) then flattenItems (levels.map (· - 1)) inner else [list inner]
  | null => []
  | d => [d]

end

/-! ## Combining -/

mutual

/-- Puts the entries of the second mapping over those of the first, one after another. -/
def overlay (base : Fields) : List (String × Document) → Fields
  | [] => base
  | (k, v) :: rest => overlay (base.insert k (overlayValue (base.get? k) v)) rest

/-- The value for a key that both sides may have: mappings are combined, everything else wins over
what was there. -/
def overlayValue (old : Option Document) : Document → Document
  | map incoming => match old with
    | some (map existing) => map (overlay existing incoming)
    | _ => map incoming
  | v => v

end

end SoftwareCensus.Document
