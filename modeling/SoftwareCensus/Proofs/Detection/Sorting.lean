import Mathlib.Data.List.Sort
import Mathlib.Data.Prod.Lex
import Mathlib.Data.String.Basic
import SoftwareCensus.Detection.Finalizing

/-!
# Sorting in Two Passes

Lists are sorted by one key and then by another. Each pass leaves items with equal keys in their
order, so the first pass still shows among the items that the second one finds equal. What comes out
is the list sorted once, by the pair of both keys.

A sorting is told by three things: it has the items of the list, their keys ascend, and the items with
any one key stand in the order in which the list has them. No two lists have all three.

## Main results

* `StablySorted.unique` : there is one such sorting of a list
* `StablySorted.andThen` : two passes sort by the pair of the keys
* `sortByField_stable` : one pass is such a sorting
* `sortTwoPass_unique` : two passes are the sorting by both fields, and its keys are those of any
  permutation
-/

namespace SoftwareCensus

/-! ## Stable sortings -/

section Sorted

variable {α κ μ : Type} [LinearOrder κ] [LinearOrder μ] {key : α → κ} {minor : α → μ}
  {items others sorted : List α}

/-- Whether a list has the items of another one in ascending order of their keys, and those with equal
keys in the order in which they were. -/
structure StablySorted (key : α → κ) (items sorted : List α) : Prop where
  perm : sorted.Perm items
  ascending : sorted.Pairwise fun a b => key a ≤ key b
  stable : ∀ k, sorted.filter (fun a => key a = k) = items.filter fun a => key a = k

namespace StablySorted

/-- What is in ascending order is a sorting of itself. -/
theorem self (h : items.Pairwise fun a b => key a ≤ key b) : StablySorted key items items :=
  ⟨.refl items, h, fun _ => rfl⟩

/-- The first key of a list in ascending order is the least one of every list with the same items. -/
theorem key_le_of_filter_eq {x : α} {xs ys : List α}
    (hxs : (x :: xs).Pairwise fun a b => key a ≤ key b)
    (h : ∀ k, (x :: xs).filter (fun a => key a = k) = ys.filter fun a => key a = k) {b : α}
    (hb : b ∈ ys) : key x ≤ key b := by
  have hin : b ∈ (x :: xs).filter fun a => key a = key b := by
    rw [h]
    exact List.mem_filter.mpr ⟨hb, by simp⟩
  rcases List.mem_cons.mp (List.mem_of_mem_filter hin) with rfl | hin
  · exact le_refl _
  · exact (List.pairwise_cons.mp hxs).1 b hin

/-- Lists in ascending order that agree on the items with any one key are equal. -/
theorem eq_of_filter_eq {xs ys : List α} (hxs : xs.Pairwise fun a b => key a ≤ key b)
    (hys : ys.Pairwise fun a b => key a ≤ key b)
    (h : ∀ k, xs.filter (fun a => key a = k) = ys.filter fun a => key a = k) : xs = ys := by
  induction xs generalizing ys with
  | nil =>
    cases ys with
    | nil => rfl
    | cons y ys => simpa using h (key y)
  | cons x xs ih =>
    cases ys with
    | nil => simpa using h (key x)
    | cons y ys =>
      -- Neither first key is above the other one, so both items are the first ones with this key.
      have hkey : key x = key y := by
        apply le_antisymm
        · exact key_le_of_filter_eq hxs h (List.mem_cons_self ..)
        · exact key_le_of_filter_eq hys (fun k => (h k).symm) (List.mem_cons_self ..)
      have hfirst := h (key y)
      simp only [List.filter_cons, hkey, decide_true, if_true, List.cons.injEq] at hfirst
      obtain ⟨rfl, -⟩ := hfirst
      refine congrArg (x :: ·) (ih (List.pairwise_cons.mp hxs).2 (List.pairwise_cons.mp hys).2 ?_)
      intro k
      have hk := h k
      by_cases hx : key x = k
      · simpa [List.filter_cons, hx] using hk
      · simpa [List.filter_cons, hx] using hk

/-- **There is one stable sorting of a list.** -/
theorem unique (h : StablySorted key items sorted) (hother : StablySorted key items others) :
    others = sorted := by
  apply eq_of_filter_eq hother.ascending h.ascending
  intro k
  rw [hother.stable, h.stable]

/-- Two items that a stable sorting finds equal stand in the order in which they were. -/
theorem sublist_of_key_eq (h : StablySorted key items sorted) {a b : α} (hkey : key a = key b)
    (hab : [a, b].Sublist sorted) :
    [a, b].Sublist items := by
  have hsame : [a, b].Sublist (sorted.filter fun c => key c = key b) := by
    simpa [hkey] using hab.filter fun c => key c = key b
  rw [h.stable] at hsame
  exact hsame.trans List.filter_sublist

/-- **Two passes sort by the pair of the keys.** The key of the second pass counts first. -/
theorem andThen {between : List α} (hminor : StablySorted minor items between)
    (h : StablySorted key between sorted) :
    StablySorted (fun a => toLex (key a, minor a)) items sorted where
  perm := h.perm.trans hminor.perm
  ascending := by
    rw [List.pairwise_iff_forall_sublist]
    intro a b hab
    rw [Prod.Lex.toLex_le_toLex]
    have hle := List.pairwise_iff_forall_sublist.mp h.ascending hab
    rcases hle.lt_or_eq with hlt | heq
    · exact .inl hlt
    · -- The second pass has left them as the first one had put them.
      have hbefore := h.sublist_of_key_eq heq hab
      exact .inr ⟨heq, List.pairwise_iff_forall_sublist.mp hminor.ascending hbefore⟩
  stable := by
    intro k
    obtain ⟨⟨major, least⟩, rfl⟩ := toLex.surjective k
    -- The items with a pair of keys are chosen by one key after the other, in either order.
    have hpair : ∀ xs : List α, xs.filter (fun a => toLex (key a, minor a) = toLex (major, least)) =
        (xs.filter fun a => key a = major).filter fun a => minor a = least := by
      intro xs
      rw [List.filter_filter]
      apply List.filter_congr
      intro a _
      simp [Bool.and_comm]
    calc sorted.filter (fun a => toLex (key a, minor a) = toLex (major, least))
        = (sorted.filter fun a => key a = major).filter fun a => minor a = least := hpair sorted
      _ = (between.filter fun a => key a = major).filter fun a => minor a = least := by rw [h.stable]
      _ = (between.filter fun a => minor a = least).filter fun a => key a = major :=
          List.filter_comm ..
      _ = (items.filter fun a => minor a = least).filter fun a => key a = major := by
          rw [hminor.stable]
      _ = (items.filter fun a => key a = major).filter fun a => minor a = least :=
          List.filter_comm ..
      _ = items.filter fun a => toLex (key a, minor a) = toLex (major, least) := (hpair items).symm

/-- The keys of a sorting are those of the list in ascending order. -/
theorem map_key_eq {otherSorted : List α} (h : StablySorted key items sorted)
    (hother : StablySorted key others otherSorted) (hperm : others.Perm items) :
    otherSorted.map key = sorted.map key := by
  have hkeys : (otherSorted.map key).Perm (sorted.map key) :=
    (hother.perm.trans (hperm.trans h.perm.symm)).map key
  apply hkeys.eq_of_pairwise (fun a b _ _ => le_antisymm)
  · exact List.pairwise_map.mpr hother.ascending
  · exact List.pairwise_map.mpr h.ascending

end StablySorted

end Sorted

/-! ## One pass -/

section Pass

variable {α κ : Type} [LinearOrder κ]

/-- Merging is stable when items with equal keys may stand in either order. -/
theorem stablySorted_mergeSort (key : α → κ) (items : List α) :
    StablySorted key items (items.mergeSort fun a b => !decide (key b < key a)) := by
  have hle : ∀ a b, (!decide (key b < key a)) = true ↔ key a ≤ key b := by simp
  have htrans : ∀ a b c, (!decide (key b < key a)) = true → (!decide (key c < key b)) = true →
      (!decide (key c < key a)) = true := by
    intro a b c
    simp only [hle]
    exact le_trans
  have htotal : ∀ a b, ((!decide (key b < key a)) || (!decide (key a < key b))) = true := by
    intro a b
    simp only [Bool.or_eq_true, hle]
    exact le_total _ _
  have hperm := List.mergeSort_perm items fun a b => !decide (key b < key a)
  refine ⟨hperm, (List.pairwise_mergeSort htrans htotal items).imp (hle _ _).mp, fun k => ?_⟩
  -- The items with one key are in order as they are, so the merging keeps them as they are.
  have hequal : (items.filter fun a => key a = k).Pairwise
      fun a b => (!decide (key b < key a)) = true := by
    apply List.pairwise_of_forall_mem_list
    intro a ha b hb
    simp only [List.mem_filter, decide_eq_true_eq] at ha hb
    simp [ha.2, hb.2]
  have hkept := (List.sublist_mergeSort htrans htotal hequal List.filter_sublist).filter
    fun a => key a = k
  rw [List.filter_filter] at hkept
  simp only [Bool.and_self] at hkept
  exact (hkept.eq_of_length (hperm.filter _).length_eq.symm).symm

end Pass

/-- One pass is a stable sorting by the text of its field. -/
theorem sortByField_stable (field : String) (items : List Document) :
    StablySorted (sortKey field) items (sortByField field items) :=
  stablySorted_mergeSort (sortKey field) items

/-! ## Both passes -/

/-- The text of a field is that of what is there, and empty if that is nothing or null. -/
theorem sortKey_eq (field : String) (item : Document) :
    sortKey field item = (((item.field? field).filter (!·.isNull)).map Document.display).getD "" := by
  rw [sortKey]
  cases item.field? field with
  | none => rfl
  | some d => cases d <;> rfl

/-- The texts by which two passes sort an item. The field of the second pass counts first. -/
def sortKeys (minor major : String) (item : Document) : String ×ₗ String :=
  toLex (sortKey major item, sortKey minor item)

theorem sortTwoPass_stable (minor major : String) (items : List Document) :
    StablySorted (sortKeys minor major) items (sortTwoPass minor major items) :=
  (sortByField_stable minor items).andThen (sortByField_stable major _)

/-- What was sorted stays as it is. -/
theorem sortTwoPass_sortTwoPass (minor major : String) (items : List Document) :
    sortTwoPass minor major (sortTwoPass minor major items) = sortTwoPass minor major items := by
  have hsorted := (sortTwoPass_stable minor major items).ascending
  exact (StablySorted.self hsorted).unique (sortTwoPass_stable minor major _)

/-- **Two passes are one stable sorting.** Of all lists just the one that two passes make is a stable
sorting of the items by both texts, where a field that is missing or null counts as the empty text. The
items of a permutation may come out in another order, but their texts do not. -/
theorem sortTwoPass_unique (minor major : String) (items : List Document) :
    (∀ sorted, StablySorted (sortKeys minor major) items sorted ↔
      sorted = sortTwoPass minor major items) ∧
    (∀ field item, sortKey field item =
      (((item.field? field).filter (!·.isNull)).map Document.display).getD "") ∧
    ∀ others, others.Perm items →
      (sortTwoPass minor major others).map (sortKeys minor major) =
        (sortTwoPass minor major items).map (sortKeys minor major) := by
  have hstable := sortTwoPass_stable minor major items
  refine ⟨fun sorted => ⟨hstable.unique, ?_⟩, sortKey_eq, fun others hperm => ?_⟩
  · rintro rfl
    exact hstable
  · exact hstable.map_key_eq (sortTwoPass_stable minor major others) hperm

/-- Packages without a version: one has none, the other one a null. -/
private def unversioned : List Document :=
  [.map [("name", .str "x")], .map [("name", .str "x"), ("version", .null)]]

/-- Neither of the two comes before the other. Listed the other way round they stay so, and the texts
that they show are the same. -/
theorem sortTwoPass_unique_unversioned :
    unversioned.reverse.Perm unversioned ∧
      sortTwoPass "name" "version" unversioned.reverse = unversioned.reverse ∧
      (sortTwoPass "name" "version" unversioned.reverse).map (sortKeys "name" "version") =
        (sortTwoPass "name" "version" unversioned).map (sortKeys "name" "version") := by
  have hperm := unversioned.reverse_perm
  have hequal : unversioned.reverse.Pairwise fun a b =>
      sortKeys "name" "version" a ≤ sortKeys "name" "version" b :=
    List.pairwise_pair.mpr (le_of_eq rfl)
  have hreversed := (sortTwoPass_unique "name" "version" unversioned.reverse).1 unversioned.reverse
  have htexts := (sortTwoPass_unique "name" "version" unversioned).2.2 _ hperm
  exact ⟨hperm, (hreversed.mp (.self hequal)).symm, htexts⟩

end SoftwareCensus
