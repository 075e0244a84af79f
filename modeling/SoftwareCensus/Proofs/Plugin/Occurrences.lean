import Mathlib.Data.Set.Card
import SoftwareCensus.Plugin.Search
import SoftwareCensus.Proofs.Document.Preorder

/-!
# Occurrences of a Key

The search for a key goes into every value, also into those that it has found. It meets every
mapping once, and what it finds are the values that these have under the key, those of outer mappings
before those of the mappings inside them.

## Main results

* `Plugin.valuesUnder_eq_filterMap` : what is found, told by the places in the source
* `Plugin.occurrences_of_key` : every occurrence of the key is found once, in preorder
-/

namespace SoftwareCensus.Plugin

open Document

variable {key : String} {source : Document}

/-! ## The search -/

/-- The items of a list are searched one after another. -/
theorem valuesUnderItems_eq (key : String) (items : List Document) :
    valuesUnderItems key items = items.flatMap (valuesUnder key) := by
  induction items with
  | nil => rfl
  | cons d rest ih => rw [valuesUnderItems, ih, List.flatMap_cons]

/-- The values of a mapping are searched in the order of their keys. -/
theorem valuesUnderEntries_eq (key : String) (fields : Fields) :
    valuesUnderEntries key fields = fields.flatMap fun entry => valuesUnder key entry.2 := by
  induction fields with
  | nil => rfl
  | cons entry rest ih => rw [valuesUnderEntries, ih, List.flatMap_cons]

/-- A value is searched for what it has under the key itself, and then all that is inside it is. -/
theorem valuesUnder_eq (key : String) (d : Document) :
    valuesUnder key d =
      (d.field? key).toList ++ d.inside.flatMap fun part => valuesUnder key part.2 := by
  cases d with
  -- A list has nothing under the key itself.
  | list items => rw [flatMap_inside_list, ← valuesUnderItems_eq, valuesUnder]; rfl
  | map fields =>
    rw [valuesUnder, valuesUnderEntries_eq, inside, List.flatMap_map]
    rfl
  | _ => rfl

/-- What a mapping at a place in the source has under the key. -/
def valueAt? (key : String) (source : Document) (place : Path) : Option Document :=
  (source.at? place).bind (·.field? key)

/-- **What is found** is what the mappings have under the key, from place to place. -/
theorem valuesUnder_eq_filterMap (key : String) (hsource : source.Ordered) :
    valuesUnder key source = source.places.filterMap (valueAt? key source) := by
  -- By induction on the source, whose parts have their places behind one step more.
  induction source using inside_induction with
  | node d ih =>
    rw [valuesUnder_eq, filterMap_places]
    refine congrArg _ (List.flatMap_congr fun part hpart => ?_)
    have hinner := hsource.child? ((mem_inside_iff hsource).mp hpart)
    rw [ih part hpart hinner]
    refine List.filterMap_congr fun place _ => ?_
    rw [valueAt?, valueAt?, at?_of_mem_inside hsource hpart]

/-! ## Counting -/

/-- There are as many things found as there are places at which something is wanted. -/
theorem encard_wanted {wanted : Path → Option Document} {found : List Document}
    (h : Gathers wanted found) :
    {place | (wanted place).isSome = true}.encard = found.length := by
  obtain ⟨places, hpairwise, hplaces, hfound⟩ := h
  -- Places in order are different.
  have hnodup : places.Nodup := by
    refine hpairwise.imp ?_
    rintro place _ hbefore rfl
    exact place.not_before_self hbefore
  have hset : {place | (wanted place).isSome = true} = (places.toFinset : Set Path) := by
    ext place
    simp [hplaces]
  have hlength := congrArg List.length hfound
  rw [List.length_map, List.length_map] at hlength
  rw [hset, Set.encard_coe_eq_coe_finsetCard, List.toFinset_card_of_nodup hnodup, hlength]

/-- The paths that end in the key are those from the mappings that have it. -/
theorem paths_to_key (key : String) (source : Document) :
    {path : Path | path.getLast? = some (.key key) ∧ ∃ e, source.at? path = some e} =
      (· ++ [.key key]) '' {place | (valueAt? key source place).isSome = true} := by
  -- Only a mapping has something under a key.
  have hend : ∀ place : Path, source.at? (place ++ [.key key]) = valueAt? key source place := by
    intro place
    rw [at?_append, valueAt?]
    congr 1
    funext d
    cases d <;> simp [child?, field?]
  ext path
  simp only [Set.mem_ofPred_eq, Set.mem_image, List.getLast?_eq_some_iff, Option.isSome_iff_exists,
    ← hend]
  constructor
  · rintro ⟨⟨place, rfl⟩, hpath⟩
    exact ⟨place, hpath, rfl⟩
  · rintro ⟨place, hpath, rfl⟩
    exact ⟨⟨place, rfl⟩, hpath⟩

/-! ## The plugin -/

/-- **Every occurrence of a key is found once.** The plugin finds what the mappings in the source have
under the key: for each mapping that has it, wherever it is, the value there, an outer mapping before
those inside it and siblings in their order. So it finds as many values as there are paths in the
source that end in the key. -/
theorem occurrences_of_key {call : Call} (hitem : call.arg? "item" = some (.str key))
    (hargument : call.arg? "source" = some source) (hsource : source.Ordered) :
    ∃ found, findInDict.run call = call.answer (.ok (.list found)) ∧
      Gathers (valueAt? key source) found ∧
      {path : Path | path.getLast? = some (.key key) ∧ ∃ e, source.at? path = some e}.encard =
        found.length := by
  have hgathers : Gathers (valueAt? key source) (valuesUnder key source) := by
    rw [valuesUnder_eq_filterMap key hsource]
    refine gathers_filterMap hsource fun place hvalue => ?_
    obtain ⟨e, he⟩ := Option.isSome_iff_exists.mp hvalue
    obtain ⟨d, hd, -⟩ := Option.bind_eq_some_iff.mp he
    exact ⟨d, hd⟩
  refine ⟨valuesUnder key source, ?_, hgathers, ?_⟩
  -- The plugin reads the key and the source from its arguments.
  · have htext : call.text "item" = key := by rw [Call.text, hitem]; rfl
    show call.answer (.ok (.list (((call.arg? "source").map _).getD []))) = _
    rw [hargument, htext]
    rfl
  -- Putting the key behind a path loses nothing of the path, so there are as many paths as places.
  · rw [paths_to_key, (List.append_left_injective [Step.key key]).encard_image]
    exact encard_wanted hgathers

/-- A mapping whose value under the key has the key again, beside a list with two more. -/
private def ports : Document :=
  map [("inner", list [map [("port", int 2)], map [("other", map [("port", int 3)])]]),
    ("port", map [("port", int 4)])]

private theorem ordered_ports : ports.Ordered := by
  have hkeys : "inner" < "port" := by decide
  have hfields : ∀ d e : Document, Fields.Ascending [("inner", d), ("port", e)] := fun _ _ =>
    List.pairwise_pair.mpr hkeys
  have hfield : ∀ entry, Fields.Ascending [entry] := List.pairwise_singleton _
  simp [ports, Ordered, ValuesOrdered, AllOrdered, hfields, hfield]

/-- A call that asks for the ports of a mapping. -/
private def portsCall : Call where
  args := map [("item", str "port"), ("source", ports)]
  facts := empty
  vars _ := none

/-- The value of the outermost mapping comes first and the one inside it last, as keys do. -/
theorem occurrences_of_key_nested :
    portsCall.arg? "item" = some (str "port") ∧ portsCall.arg? "source" = some ports ∧
      ports.Ordered ∧
      Gathers (valueAt? "port" ports) [map [("port", int 4)], int 2, int 3, int 4] := by
  have hitem : portsCall.arg? "item" = some (str "port") := by rfl
  have hsource : portsCall.arg? "source" = some ports := by rfl
  obtain ⟨found, hrun, hgathers, -⟩ := occurrences_of_key hitem hsource ordered_ports
  have hfound : findInDict.run portsCall =
      portsCall.answer (.ok (.list [map [("port", int 4)], int 2, int 3, int 4])) := by rfl
  obtain rfl : [map [("port", int 4)], int 2, int 3, int 4] = found := by
    simpa [Call.answer] using hfound.symm.trans hrun
  exact ⟨hitem, hsource, ordered_ports, hgathers⟩

end SoftwareCensus.Plugin
