import SoftwareCensus.Proofs.Document.Overlaying
import SoftwareCensus.Proofs.Template.Values
import SoftwareCensus.Template.Filter

/-!
# Combining and Merging

There are two ways to put mappings together. The filter `combine` overlays the documents of its
arguments and gives a value back. Merging is what facts go through when the result of a plugin is
adopted. With `recursive=true` the filter does what merging does where new lists replace old ones.

## Main results

* `combine_recursive` : the filter overlays the documents of its arguments
* `combine_recursive_eq_merges` : the filter merges them
-/

namespace SoftwareCensus.Template

open Document

/-- The arguments of a filter that combines a value with an update at every depth. -/
def recursively (v update : Value) : List Value := [v, update, .named [("recursive", .bool true)]]

/-- The mappings that an update brings in: those of a list, or the only one. -/
inductive Brings : Document → List Fields → Prop
  | each (updates : List Fields) : Brings (.list (updates.map .map)) updates
  | only (update : Fields) : Brings (.map update) [update]

variable {base : Fields} {updates : List Fields} {d : Document}

/-- An update that is well-formed brings in nothing else. -/
theorem Brings.wellFormed {room : Nat} (h : Brings d updates) (hd : WellFormed room d) :
    ∀ update ∈ updates, WellFormed room (map update) := by
  cases h with
  | each =>
    intro update hupdate
    have hitem := (wellFormed_list_iff.mp hd).2 _ (List.mem_map_of_mem hupdate)
    exact hitem.mono (Nat.sub_le room 1)
  | only update => exact List.forall_mem_singleton.mpr hd

/-- Mappings are overlaid from left to right. -/
theorem combined_maps (base : Fields) (updates : List Fields) :
    Filter.combined true base (updates.map .map) = .ok (updates.foldl overlay base) := by
  induction updates generalizing base with
  | nil => rfl
  | cons update rest ih => exact ih (overlay base update)

/-- **The filter overlays** the mappings that an update brings in, one after another. -/
theorem combine_recursive {v u : Value} (hv : v.toDocument = .ok (.map base))
    (hu : u.toDocument = .ok d) (hd : Brings d updates) :
    applyFilter "combine" (recursively v u) =
      .ok (Value.ofDocument (.map (updates.foldl overlay base))) := by
  -- To take the arguments apart, no value is looked into before the document of the first is made.
  show Except.bind (Except.bind v.toDocument _) _ = _
  rw [hv]
  show Except.bind u.toDocument _ = _
  rw [hu]
  cases hd with
  | each =>
    show Except.bind (Filter.combined true base (updates.map .map)) _ = _
    rw [combined_maps]
    rfl
  | only update => rfl

/-- **Combining at every depth is merging.** For every mapping, and every list of mappings to be put
over it, the filter gives the value of the mapping that one gets by merging one update after another,
so that new lists replace old ones. That mapping is the document of the value again. -/
theorem combine_recursive_eq_merges {v u : Value} (hv : v.toDocument = .ok (.map base))
    (hu : u.toDocument = .ok d) (hd : Brings d updates) :
    applyFilter "combine" (recursively v u) =
        .ok (Value.ofDocument (.map (updates.foldl (mergeFields .replace) base))) ∧
      (Value.ofDocument (.map (updates.foldl (mergeFields .replace) base))).toDocument =
        .ok (.map (updates.foldl (mergeFields .replace) base)) := by
  -- The documents of values are well-formed, and there is room for both.
  have hbase := (Value.wellFormed_of_toDocument v hv).mono (Nat.le_max_left _ d.depth)
  have hupdate := (Value.wellFormed_of_toDocument u hu).mono (Nat.le_max_right (map base).depth _)
  obtain ⟨hmerges, hwellFormed⟩ := foldl_overlay_eq hbase (hd.wellFormed hupdate)
  rw [combine_recursive hv hu hd, ← hmerges]
  exact ⟨rfl, Value.toDocument_ofDocument _ hwellFormed.ordered hwellFormed.isJson⟩

/-- A mapping with a number and a list in a mapping. -/
private def shared : Fields := [("a", .map [("l", .list [.int 1, .int 2]), ("n", .int 3)])]

/-- An update that goes into the mapping, and one that puts something else over the number in it. -/
private def overlays : List Fields :=
  [[("a", .map [("l", .list [.int 4]), ("m", .null)])], [("a", .map [("n", .map [])]), ("b", .int 5)]]

/-- Lists are replaced, and so is a number, but not what the updates say nothing about. -/
theorem combine_recursive_eq_merges_shared :
    applyFilter "combine" (recursively (.ofDocument (.map shared))
          (.ofDocument (.list (overlays.map .map)))) =
        .ok (.ofDocument (.map (overlays.foldl (mergeFields .replace) shared))) ∧
      overlays.foldl (mergeFields .replace) shared =
        [("a", .map [("l", .list [.int 4]), ("m", .null), ("n", .map [])]), ("b", .int 5)] := by
  have hshared : (Value.ofDocument (.map shared)).toDocument = .ok (.map shared) := by rfl
  have hoverlays : (Value.ofDocument (.list (overlays.map .map))).toDocument =
      .ok (.list (overlays.map .map)) := by rfl
  exact ⟨(combine_recursive_eq_merges hshared hoverlays (.each overlays)).1, by rfl⟩

end SoftwareCensus.Template
