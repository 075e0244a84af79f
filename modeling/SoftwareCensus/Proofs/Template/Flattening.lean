import SoftwareCensus.Document.Shape
import SoftwareCensus.Proofs.Document.Preorder
import SoftwareCensus.Proofs.Template.Values
import SoftwareCensus.Template.Filter

/-!
# Flattening

A list that is flattened keeps what lists alone lead to, down to a depth. Nulls are left out
wherever they are met, and a list is kept whole at that depth only; above it, what is inside takes its
place. So flattening a second time goes on where the first time stopped, and where there was no limit
nothing is left to be done.

## Main results

* `Document.flattenItem_eq_filterMap` : what is kept, told by the places in nested lists
* `Document.flatMap_flattenItem` : flattening what is flattened adds the levels
* `Template.flatten_composes` : the same of the filter, on values
-/

namespace SoftwareCensus

/-- Whether a step leads into a list. -/
def Step.isIndex : Step → Bool
  | index _ => true
  | key _ => false

namespace Document

/-! ## Lists in a list -/

variable {levels : Option Int} {d e : Document}

theorem flattenItems_eq (levels : Option Int) (items : List Document) :
    flattenItems levels items = items.flatMap (flattenItem levels) := by
  induction items with
  | nil => rfl
  | cons d rest ih => rw [flattenItems, ih, List.flatMap_cons]

/-- A list is kept if there are no levels left. -/
theorem flattenItem_zero (items : List Document) :
    flattenItem (some (0 : Nat)) (list items) = [list items] := by
  rw [flattenItem, if_neg (by simp)]

/-- A list is replaced by what is inside if there is a level left, or no limit. -/
theorem flattenItem_deeper (depth : Option Nat) (items : List Document) :
    flattenItem ((depth.map (· + 1)).map Nat.cast) (list items) =
      items.flatMap (flattenItem (depth.map Nat.cast)) := by
  -- The number of levels is an integer, so one level less is told apart for a limit and for none.
  cases depth with
  | none => rw [flattenItem, if_pos (by rfl), flattenItems_eq]; rfl
  | some n =>
    rw [flattenItem, if_pos (by simp), flattenItems_eq]
    simp

/-- What is neither a list nor null stays as it is. -/
theorem flattenItem_of_leaf (hnull : d.isNull = false) (hlist : d.asList? = none) :
    flattenItem levels d = [d] := by
  cases d with
  | null => cases hnull
  | list items => cases hlist
  | _ => rfl

/-! ## What is kept -/

/-- What is kept of a place in nested lists, down to a depth if there is one. Lists alone lead there,
and it is neither null nor a list; at that depth it may be a list. -/
def keptAt? (depth : Option Nat) (d : Document) (place : Path) : Option Document :=
  if place.all Step.isIndex && depth.all (place.length ≤ ·) then
    (d.at? place).filter fun e => !e.isNull && (e.asList?.isNone || depth == some place.length)
  else none

/-- What a leaf of nested lists is: lists alone lead to its place, and it is neither null nor a
list. -/
def leafAt? (d : Document) (place : Path) : Option Document :=
  if place.all Step.isIndex then
    (d.at? place).filter fun e => !e.isNull && e.asList?.isNone
  else none

/-- Without a depth, the leaves are kept. -/
theorem keptAt?_none (d : Document) : keptAt? none d = leafAt? d := by
  funext place
  simp [keptAt?, leafAt?]

/-- Nothing in a mapping is kept on its own: the mapping is, as a whole. -/
theorem keptAt?_key (depth : Option Nat) (name : String) (rest : Path) :
    keptAt? depth d (.key name :: rest) = none := rfl

/-- Behind a step into a list, there is one level less. -/
theorem keptAt?_index {depth : Option Nat} {i : Nat} (hchild : d.child? (.index i) = some e)
    (rest : Path) :
    keptAt? (depth.map (· + 1)) d (.index i :: rest) = keptAt? depth e rest := by
  cases depth <;> simp [keptAt?, hchild, Step.isIndex]

/-- At depth zero, nothing is met but the document itself. -/
theorem keptAt?_zero (step : Step) (rest : Path) : keptAt? (some 0) d (step :: rest) = none := by
  simp [keptAt?]

/-- At the document itself: it is kept unless it is null, or a list with levels left. -/
theorem keptAt?_nil (depth : Option Nat) (d : Document) :
    keptAt? depth d [] =
      if !d.isNull && (d.asList?.isNone || depth == some 0) then some d else none := by
  have hreached : depth.all (([] : Path).length ≤ ·) = true := by cases depth <;> rfl
  rw [keptAt?, hreached]
  rfl

/-- What is kept at a place is there, and is a list at the last level only. -/
theorem of_keptAt?_eq_some {depth : Option Nat} {place : Path}
    (h : keptAt? depth d place = some e) :
    d.at? place = some e ∧ e.isNull = false ∧
      (e.asList? = none ∨ depth = some place.length) := by
  rw [keptAt?] at h
  split at h
  case isTrue =>
    obtain ⟨hplace, he⟩ := Option.filter_eq_some_iff.mp h
    exact ⟨hplace, by simpa using he⟩
  case isFalse => cases h

/-- **What is kept** is told by the places in nested lists. -/
theorem flattenItem_eq_filterMap (depth : Option Nat) (hd : d.Ordered) :
    flattenItem (depth.map Nat.cast) d = d.places.filterMap (keptAt? depth d) := by
  -- The depth is generalized: there is one level less in what is inside a list.
  induction d using inside_induction generalizing depth with
  | node d ih =>
    rw [filterMap_places, keptAt?_nil]
    cases d with
    | list items =>
      obtain rfl | ⟨depth, rfl⟩ : depth = some 0 ∨ ∃ less : Option Nat, depth = less.map (· + 1) := by
        match depth with
        | some 0 => exact .inl rfl
        | none => exact .inr ⟨none, rfl⟩
        | some (n + 1) => exact .inr ⟨some n, rfl⟩
      · -- The list is kept, and nothing inside is met.
        rw [Option.map_some, flattenItem_zero, List.flatMap_eq_nil_iff.mpr]
        · rfl
        · intro part _
          exact List.filterMap_eq_nil_iff.mpr fun place _ => keptAt?_zero part.1 place
      · have hself : (depth.map (· + 1) == some 0) = false := by cases depth <;> rfl
        rw [hself, flattenItem_deeper, ← flatMap_inside_list]
        refine List.flatMap_congr fun part hpart => ?_
        have hchild := (mem_inside_iff hd).mp hpart
        rw [ih part hpart depth (hd.child? hchild)]
        obtain ⟨⟨e, i⟩, -, rfl⟩ := List.mem_map.mp hpart
        exact List.filterMap_congr fun place _ => (keptAt?_index hchild place).symm
    -- A mapping is kept itself, and no step by a key keeps anything.
    | map fields =>
      rw [List.flatMap_eq_nil_iff.mpr]
      · rfl
      · intro part hpart
        obtain ⟨entry, -, rfl⟩ := List.mem_map.mp hpart
        exact List.filterMap_eq_nil_iff.mpr fun place _ => keptAt?_key ..
    | _ => rfl

/-- What is kept without a limit is neither null nor a list. -/
theorem leaf_of_mem_flattenItem (hd : d.Ordered) (he : e ∈ flattenItem none d) :
    e.isNull = false ∧ e.asList? = none := by
  have he : e ∈ d.places.filterMap (keptAt? none d) := flattenItem_eq_filterMap none hd ▸ he
  obtain ⟨place, -, hplace⟩ := List.mem_filterMap.mp he
  obtain ⟨-, hnull, hlist⟩ := of_keptAt?_eq_some hplace
  exact ⟨hnull, hlist.resolve_right nofun⟩

/-! ## Flattening again -/

/-- **Flattening what is flattened adds the levels.** -/
theorem flatMap_flattenItem (m l : Nat) (d : Document) :
    (flattenItem (some m) d).flatMap (flattenItem (some l)) =
      flattenItem (some (m + l : Nat)) d := by
  induction d using inside_induction generalizing m with
  | node d ih =>
    cases d with
    | list items =>
      cases m with
      | zero => rw [flattenItem_zero, List.flatMap_singleton, Nat.zero_add]
      | succ m =>
        -- On either side the list is opened, and that takes one of the first levels.
        have hopen : ∀ n : Nat, flattenItem (some (n + 1 : Nat)) (list items) =
            items.flatMap (flattenItem (some n)) := fun n => flattenItem_deeper (some n) items
        rw [hopen, Nat.succ_add, hopen, List.flatMap_assoc, ← flatMap_inside_list,
          ← flatMap_inside_list]
        exact List.flatMap_congr fun part hpart => ih part hpart m
    | null => rfl
    | _ => rfl

/-- The same of the items of a list. -/
theorem flattenItems_flattenItems (m l : Nat) (items : List Document) :
    flattenItems (some l) (flattenItems (some m) items) = flattenItems (some (m + l : Nat)) items := by
  simp only [flattenItems_eq, List.flatMap_assoc, flatMap_flattenItem]

/-- Where nothing is null or a list, nothing is left to be done. -/
theorem flattenItems_of_leaves {leaves : List Document} (levels : Option Int)
    (h : ∀ d ∈ leaves, d.isNull = false ∧ d.asList? = none) :
    flattenItems levels leaves = leaves := by
  rw [flattenItems_eq]
  calc leaves.flatMap (flattenItem levels) = leaves.flatMap fun d => [d] :=
        List.flatMap_congr fun d hd => flattenItem_of_leaf (h d hd).1 (h d hd).2
    _ = leaves := List.flatMap_singleton' leaves

/-! ## What is left -/

/-- What is kept of a list, told by the places in it; levels are counted from its items. -/
theorem gathers_flattenItems (levels : Option Nat) {items : List Document}
    (hitems : (list items).Ordered) :
    Gathers (keptAt? (levels.map (· + 1)) (list items))
      (flattenItems (levels.map Nat.cast) items) := by
  rw [flattenItems_eq, ← flattenItem_deeper, flattenItem_eq_filterMap _ hitems]
  refine gathers_filterMap hitems fun place hplace => ?_
  obtain ⟨e, he⟩ := Option.isSome_iff_exists.mp hplace
  exact ⟨e, (of_keptAt?_eq_some he).1⟩

theorem WellFormed.at? {room : Nat} : ∀ (place : Path) {d e : Document}, WellFormed room d →
    d.at? place = some e → WellFormed room e
  | [], _, _, hd, h => Option.some.inj h ▸ hd
  | step :: rest, d, _, hd, h => by
    obtain ⟨inner, hinner, h⟩ := Option.bind_eq_some_iff.mp h
    refine WellFormed.at? rest ?_ h
    have hpart := (mem_inside_iff hd.ordered).mpr hinner
    -- Whatever a step leads into is one level deeper, so it fits where there is less room.
    cases d with
    | list items =>
      obtain ⟨⟨item, i⟩, hitem, heq⟩ := List.mem_map.mp hpart
      cases heq
      have hitem := (wellFormed_list_iff.mp hd).2 inner (List.fst_mem_of_mem_zipIdx hitem)
      exact hitem.mono (Nat.sub_le room 1)
    | map fields =>
      obtain ⟨⟨key, value⟩, hentry, heq⟩ := List.mem_map.mp hpart
      cases heq
      exact ((wellFormed_map_iff.mp hd).2.2 _ hentry).mono (Nat.sub_le room 1)
    | _ => cases hpart

/-- What is kept of well-formed documents is well-formed. -/
theorem wellFormed_flattenItems {room : Nat} {items : List Document}
    (hitems : ∀ d ∈ items, WellFormed room d) (levels : Option Nat) :
    WellFormed (room + 1) (list (flattenItems (levels.map Nat.cast) items)) := by
  refine wellFormed_list_iff.mpr ⟨Nat.succ_pos room, fun e he => ?_⟩
  rw [flattenItems_eq] at he
  obtain ⟨d, hd, he⟩ := List.mem_flatMap.mp he
  -- Whatever is kept stands at a place of an item.
  rw [flattenItem_eq_filterMap levels (hitems d hd).ordered] at he
  obtain ⟨place, -, hplace⟩ := List.mem_filterMap.mp he
  exact (hitems d hd).at? place (of_keptAt?_eq_some hplace).1

end Document

/-! ## The filter -/

namespace Template

open Document

/-- How far a list is flattened, told by the further arguments of the filter: without a limit, or by
a number of levels. -/
inductive Limits : List Value → Option Int → Prop
  | omitted : Limits [] none
  | unlimited {w : Value} (h : (w.isUndefined || w.isNone) = true) : Limits [w] none
  | levels {w : Value} {n : Int} (h : Args.asInt w = .ok n) : Limits [w] (some n)

variable {v w : Value} {items : List Document} {args : List Value} {levels : Option Int}

/-- A whole number of 64 bits is read as it is. -/
theorem asInt_int {n : Int} (hlow : Numeral.minInt64 ≤ n) (hhigh : n ≤ Numeral.maxInt64) :
    Args.asInt (.int n) = .ok n := by
  show (if decide (Numeral.minInt64 ≤ n) && decide (n ≤ Numeral.maxInt64) then _ else _) = _
  rw [if_pos (by simp [hlow, hhigh])]

/-- An argument that is missing is no limit. -/
theorem optional_of_missing (h : (w.isUndefined || w.isNone) = true) :
    Args.optional Args.asInt [w] = .ok (none, []) := by
  show (if w.isUndefined || w.isNone then _ else _ : Args (Option Int)) [] = _
  rw [if_pos h]
  rfl

/-- An argument that is a number is the number of levels. -/
theorem optional_of_asInt {n : Int} (h : Args.asInt w = .ok n) :
    Args.optional Args.asInt [w] = .ok (some n, []) := by
  have hthere : (w.isUndefined || w.isNone) = false := by
    cases w with
    | undefined => cases h
    | none => cases h
    | _ => rfl
  show (if w.isUndefined || w.isNone then _ else _ : Args (Option Int)) [] = _
  rw [hthere]
  show Except.bind (Except.bind (Args.asInt w) _) _ = _
  rw [h]
  rfl

/-- **The filter flattens** the document of its first argument. -/
theorem flatten_apply (hv : v.toDocument = .ok (.list items)) (hlimits : Limits args levels) :
    applyFilter "flatten" (v :: args) =
      .ok (Value.ofDocument (.list (flattenItems levels items))) := by
  have htaken : Args.optional Args.asInt args = .ok (levels, []) := by
    cases hlimits with
    | omitted => rfl
    | unlimited h => exact optional_of_missing h
    | levels h => exact optional_of_asInt h
  show Except.bind (Except.bind (Except.bind (Args.optional Args.asInt args) _) _) _ = _
  rw [htaken]
  show Except.bind v.toDocument _ = _
  rw [hv]
  rfl

/-- What the filter gives is read back, and it goes on from there. -/
theorem flatten_again (hv : v.toDocument = .ok (.list items)) (kept : Option Nat)
    (hlimits : Limits args levels) :
    applyFilter "flatten"
        (Value.ofDocument (.list (flattenItems (kept.map Nat.cast) items)) :: args) =
      .ok (Value.ofDocument (.list (flattenItems levels (flattenItems (kept.map Nat.cast) items)))) := by
  have hlist := wellFormed_list_iff.mp (Value.wellFormed_of_toDocument v hv)
  have hkept := wellFormed_flattenItems hlist.2 kept
  exact flatten_apply (Value.toDocument_ofDocument _ hkept.ordered hkept.isJson) hlimits

/-- **Flattening composes.** A value whose document is a list is flattened by some levels and then by
more as it is by all of them at once; what is kept is told by the places in the list. Without a limit,
the leaves are left that are neither null nor lists, from left to right, and flattening them again in
any way changes nothing. -/
theorem flatten_composes (hv : v.toDocument = .ok (.list items)) :
    (∀ m l : Nat, (m + l : Int) ≤ Numeral.maxInt64 → ∃ kept both : List Document,
      applyFilter "flatten" [v, .int m] = .ok (.ofDocument (.list kept)) ∧
        Gathers (keptAt? (some (m + 1)) (.list items)) kept ∧
        applyFilter "flatten" [.ofDocument (.list kept), .int l] =
          .ok (.ofDocument (.list both)) ∧
        applyFilter "flatten" [v, .int (m + l)] = .ok (.ofDocument (.list both))) ∧
      ∃ leaves : List Document,
        applyFilter "flatten" [v] = .ok (.ofDocument (.list leaves)) ∧
          Gathers (leafAt? (.list items)) leaves ∧
          ∀ args levels, Limits args levels →
            applyFilter "flatten" (.ofDocument (.list leaves) :: args) =
              .ok (.ofDocument (.list leaves)) := by
  have hlist : (list items).Ordered := (Value.wellFormed_of_toDocument v hv).ordered
  constructor
  · intro m l hfits
    have hint : ∀ n : Nat, n ≤ m + l → Limits [.int n] (some n) := fun n hn =>
      .levels (asInt_int (by simp [Numeral.minInt64]) (by omega))
    -- Both numbers fit in 64 bits because their sum does.
    refine ⟨flattenItems (some m) items, flattenItems (some (m + l : Nat)) items,
      flatten_apply hv (hint m (by omega)), gathers_flattenItems (some m) hlist, ?_,
      flatten_apply hv (hint (m + l) (le_refl _))⟩
    rw [← flattenItems_flattenItems]
    exact flatten_again hv (some m) (hint l (by omega))
  · refine ⟨flattenItems none items, flatten_apply hv .omitted, ?_, fun args levels hlimits => ?_⟩
    · rw [← keptAt?_none]
      exact gathers_flattenItems none hlist
    · have hleaves : ∀ d ∈ flattenItems none items, d.isNull = false ∧ d.asList? = none := by
        intro d hd
        rw [flattenItems_eq] at hd
        obtain ⟨item, hitem, hd⟩ := List.mem_flatMap.mp hd
        exact leaf_of_mem_flattenItem (allOrdered_iff.mp hlist item hitem) hd
      have hagain := flatten_again hv none hlimits
      rwa [Option.map_none, flattenItems_of_leaves levels hleaves] at hagain

/-- A list with nulls at every depth, also in a mapping. -/
private def nested : List Document :=
  [.int 1, .null, .list [.int 2, .null, .list [.null, .int 3]], .map [("l", .list [.null])]]

/-- One level and one more are two; what is left has a list in a mapping, which is no list of its
own. -/
theorem flatten_composes_nested :
    (Value.ofDocument (.list nested)).toDocument = .ok (.list nested) ∧
      (1 + 1 : Int) ≤ Numeral.maxInt64 ∧ Limits [.int 0] (some 0) ∧
      (∃ kept, applyFilter "flatten" [.ofDocument (.list nested), .int 1] =
          .ok (.ofDocument (.list kept)) ∧
        applyFilter "flatten" [.ofDocument (.list kept), .int 1] =
          applyFilter "flatten" [.ofDocument (.list nested), .int (1 + 1)]) ∧
      applyFilter "flatten" [.ofDocument (.list nested)] =
        .ok (.ofDocument (.list [.int 1, .int 2, .int 3, .map [("l", .list [.null])]])) ∧
      ∃ leaves, applyFilter "flatten" [.ofDocument (.list nested)] =
          .ok (.ofDocument (.list leaves)) ∧
        applyFilter "flatten" [.ofDocument (.list leaves), .int 0] =
          .ok (.ofDocument (.list leaves)) := by
  have hnested : (Value.ofDocument (.list nested)).toDocument = .ok (.list nested) := by rfl
  have hzero : Limits [.int 0] (some 0) := .levels (by rfl)
  obtain ⟨hlevels, leaves, hleaves, -, hagain⟩ := flatten_composes hnested
  obtain ⟨kept, both, hkept, -, hmore, hboth⟩ := hlevels 1 1 (by decide)
  exact ⟨hnested, by decide, hzero, ⟨kept, hkept, hmore.trans hboth.symm⟩, by rfl, leaves, hleaves,
    hagain _ _ hzero⟩

end Template

end SoftwareCensus
