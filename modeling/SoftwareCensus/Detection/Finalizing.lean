import SoftwareCensus.Catalog.Signature

/-!
# Finalizing

What becomes of an instance when its tasks are through: it is dropped if they say so, else it is
put in order and loses what the signature does not report.
-/

namespace SoftwareCensus

/-- What becomes of an instance. -/
inductive Disposition where
  | keep (document : Document)
  /-- The instance is dropped and its processes are available again. -/
  | retract
  deriving Inhabited

/-! ## Sorting -/

/-- The text by which an item is sorted; missing and null fields are empty. -/
def sortKey (field : String) (item : Document) : String :=
  match item.field? field with
  | none | some .null => ""
  | some d => d.display

/-- Sorts by one field; what is equal keeps its order. -/
def sortByField (field : String) (items : List Document) : List Document :=
  items.mergeSort fun a b => !(sortKey field b < sortKey field a)

/-- Sorts by the second field, and what is equal there by the first. -/
def sortTwoPass (minor major : String) (items : List Document) : List Document :=
  sortByField major (sortByField minor items)

/-! ## Instances -/

/-- The field by which tasks withdraw an instance. -/
def retractionSentinel : String := "NOT_A_REAL_SOFTWARE_REMOVE_FROM_LIST"

/-- Changes the value of a field, if it is there. -/
def Fields.modify (fields : Fields) (key : String) (change : Document → Document) : Fields :=
  fields.map fun (k, d) => if k == key then (k, change d) else (k, d)

/-- Sorts a list; other values stay as they are. -/
def sortList (minor major : String) : Document → Document
  | .list items => .list (sortTwoPass minor major items)
  | d => d

/-- Removes a field of a mapping; other values stay as they are. -/
def dropField (key : String) : Document → Document
  | .map fields => .map (Fields.erase fields key)
  | d => d

/-- Puts the fields of an instance in order. -/
def finalizeFields (s : Signature) (discoveryTime : Option String) (fields : Fields) : Fields :=
  let fields := Fields.modify fields "version" (sortList "type" "number")
  let fields :=
    if s.returnPackages then Fields.modify fields "packages" (sortList "name" "version")
    else Fields.erase fields "packages"
  let fields := if s.returnChildren then fields
    else Fields.modify fields "process" (dropField "children")
  let fields := Fields.modify fields "docker" (dropField "full_data")
  match discoveryTime with
  | some time => if Fields.contains fields "discovery_time" then fields
    else Fields.insert fields "discovery_time" (.str time)
  | none => fields

/-- Finalizes an instance. What is no mapping is kept as it is. -/
def finalize (s : Signature) (discoveryTime : Option String) : Document → Disposition
  | .map fields =>
    if ((Fields.get? fields retractionSentinel).map Document.isTruthy).getD false then .retract
    else .keep (.map (finalizeFields s discoveryTime fields))
  | d => .keep d

end SoftwareCensus
