import SoftwareCensus.Document.Shape
import SoftwareCensus.Proofs.Document.Merging

/-!
# Overlays as Merges

Putting one mapping over another goes through the entries of the second one and combines nothing but
mappings. It is the merge without a shortcut in which new lists replace old ones. The shortcut makes
no difference to that merge, and what is merged stays in order, so any number of mappings can be put
over one another or merged, one after another.

## Main results

* `overlay_eq_plainMerge` : an overlay is a merge without a shortcut
* `WellFormed.plainMergeValue` : what is merged stays in order and within JSON
* `foldl_overlay_eq` : overlays one after another are merges one after another
-/

namespace SoftwareCensus.Document

open Fields ListMerge

variable {policy : ListMerge} {room : Nat}

/-! ## Overlays -/

mutual

/-- **An overlay is a merge without a shortcut** in which new lists replace old ones. -/
theorem overlay_eq_plainMerge : ∀ base update : Fields,
    overlay base update = plainMerge .replace base update
  | _, [] => rfl
  | base, (k, v) :: rest => by
    rw [overlay, plainMerge, overlayValue_eq_plainMergeValue (base.get? k) v]
    exact overlay_eq_plainMerge _ rest

theorem overlayValue_eq_plainMergeValue (old : Option Document) (new : Document) :
    overlayValue old new = plainMergeValue .replace old new := by
  cases new with
  | map update =>
    cases old with
    | none => rfl
    | some old =>
      cases old with
      | map base => exact congrArg map (overlay_eq_plainMerge base update)
      | _ => rfl
  | list others =>
    -- Whatever was there, the new list replaces it.
    cases old with
    | none => rfl
    | some old => cases old <;> rfl
  | _ => rfl

end

/-! ## What merges keep -/

/-- Of entries bound by a merge, every value was there before or is one that was merged. -/
theorem forall_mergeWith {P : Document → Prop} {value : Option Document → Document → Document}
    {base update : Fields} (hbase : ∀ entry ∈ base, P entry.2)
    (hvalue : ∀ entry ∈ update, ∀ old, (∀ d ∈ old, P d) → P (value old entry.2)) :
    ∀ entry ∈ mergeWith value base update, P entry.2 := by
  induction update generalizing base with
  | nil => exact hbase
  | cons first rest ih =>
    obtain ⟨hfirst, hrest⟩ := List.forall_mem_cons.mp hvalue
    -- What the mapping had under the key is one of its values.
    have hbound := hfirst (base.get? first.1) fun d hd => hbase (first.1, d) (mem_of_get? hd)
    exact ih (forall_insert hbase hbound) hrest

/-- **What is merged stays in order and within JSON.** -/
theorem WellFormed.plainMergeValue (new : Document) {old : Document} (hold : WellFormed room old)
    (hnew : WellFormed room new) :
    WellFormed room (Document.plainMergeValue policy (some old) new) := by
  induction new using map_induction generalizing old room with
  | leaf new hleaf =>
    cases new with
    | map update => cases hleaf
    | list others =>
      cases old with
      | list items =>
        -- Every item of a combined list is an item of one of the two.
        obtain ⟨hroom, hothers⟩ := wellFormed_list_iff.mp hnew
        have hitems := (wellFormed_list_iff.mp hold).2
        refine wellFormed_list_iff.mpr ⟨hroom, fun d hd => ?_⟩
        exact (mem_of_mem_combine hd).elim (hitems d) (hothers d)
      | _ => exact hnew
    | _ => exact hnew
  | node update ih =>
    cases old with
    | map base =>
      obtain ⟨hroom, hascending, hbase⟩ := wellFormed_map_iff.mp hold
      have hupdate := (wellFormed_map_iff.mp hnew).2.2
      show WellFormed room (map (plainMerge policy base update))
      rw [plainMerge_eq]
      refine wellFormed_map_iff.mpr ⟨hroom, hascending.mergeWith update, ?_⟩
      -- What the update brings is merged with what was there, or bound as it is.
      refine forall_mergeWith hbase fun entry hentry bound hbound => ?_
      cases bound with
      | none =>
        rw [plainMergeValue_none]
        exact hupdate entry hentry
      | some d => exact ih entry hentry (hbound d rfl) (hupdate entry hentry)
    | _ => exact hnew

/-- The shortcut makes no difference where new lists replace old ones. -/
theorem mergeFields_replace_eq_plainMerge {base update : Fields} (hbase : WellFormed room (map base))
    (hupdate : WellFormed room (map update)) :
    mergeFields .replace base update = plainMerge .replace base update := by
  apply map.inj
  rw [map_mergeFields]
  exact (like_mergeValue_iff likeness_eq (map update) hbase hupdate).mpr fun _ _ _ => rfl

/-! ## One after another -/

/-- **Overlays one after another are merges one after another**, and what they come to can be put
over something again. -/
theorem foldl_overlay_eq {updates : List Fields} {base : Fields} (hbase : WellFormed room (map base))
    (hupdates : ∀ update ∈ updates, WellFormed room (map update)) :
    updates.foldl overlay base = updates.foldl (mergeFields .replace) base ∧
      WellFormed room (map (updates.foldl overlay base)) := by
  induction updates generalizing base with
  | nil => exact ⟨rfl, hbase⟩
  | cons update rest ih =>
    obtain ⟨hupdate, hrest⟩ := List.forall_mem_cons.mp hupdates
    have hoverlay := overlay_eq_plainMerge base update
    -- The merge is well-formed, so the rest can be put over it in turn.
    have hmerged : WellFormed room (map (overlay base update)) := by
      rw [hoverlay]
      exact WellFormed.plainMergeValue (map update) hbase hupdate
    have hstep : overlay base update = mergeFields .replace base update :=
      hoverlay.trans (mergeFields_replace_eq_plainMerge hbase hupdate).symm
    obtain ⟨heq, hwellFormed⟩ := ih hmerged hrest
    rw [List.foldl_cons, List.foldl_cons, ← hstep]
    exact ⟨heq, hwellFormed⟩

end SoftwareCensus.Document
