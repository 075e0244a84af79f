import SoftwareCensus.Plugin.Facts
import SoftwareCensus.Proofs.Document.Places

/-!
# Removing what Stands at a Place

A removal takes one value away, and only if it is there. In a mapping that is a key with what is
bound to it. In a list it is an item, and those behind it move up, so all paths that lead through the
list to a later item lead elsewhere than before.

## Main results

* `isSome_removeAt?_iff` : what can be removed is what is there, but for the document itself
* `removeAt?_append` : a removal changes one value and what is around it
* `removeAt?_takes_one` : what is gone after a removal, and where everything else is
-/

namespace SoftwareCensus.Document

/-! ## One step at a time -/

variable {d e : Document} {step : Step} {rest : Path}

/-- A removal puts what it leaves of the inner value in its place. -/
theorem removeAt?_cons (hrest : rest ≠ []) :
    d.removeAt? (step :: rest) =
      (d.child? step).bind fun inner =>
        (inner.removeAt? rest).map fun left => (d.setChild step left).document := by
  obtain ⟨next, more, rfl⟩ := List.exists_cons_of_ne_nil hrest
  cases hstep : d.child? step with
  | none =>
    unfold removeAt? child? at *
    split
    · simp_all
    · simp_all
    · rfl
  | some inner =>
    unfold child? at hstep
    split at hstep
    · simp only [removeAt?, hstep, setChild, Option.bind_some]
    · obtain ⟨hin, -⟩ := List.getElem?_eq_some_iff.mp hstep
      simp only [removeAt?, hstep, setChild, if_pos hin, Option.bind_some]
    · cases hstep

/-- A key is removed with what is bound to it. -/
theorem removeAt?_key {name : String} : d.removeAt? [.key name] = some e ↔
    ∃ fields : Fields, (fields.get? name).isSome = true ∧ d = map fields ∧
      e = map (fields.erase name) := by
  cases d with
  | map fields =>
    simp only [removeAt?, Option.ite_none_right_eq_some, Option.some.injEq, map.injEq]
    constructor
    · rintro ⟨hbound, rfl⟩
      exact ⟨fields, hbound, rfl, rfl⟩
    · rintro ⟨_, hbound, rfl, rfl⟩
      exact ⟨hbound, rfl⟩
  | _ => simp [removeAt?]

/-- An item is removed and those behind it move up. -/
theorem removeAt?_index {i : Nat} : d.removeAt? [.index i] = some e ↔
    ∃ items : List Document, i < items.length ∧ d = list items ∧ e = list (items.eraseIdx i) := by
  cases d with
  | list items =>
    simp only [removeAt?, Option.ite_none_right_eq_some, Option.some.injEq, list.injEq]
    constructor
    · rintro ⟨hin, rfl⟩
      exact ⟨items, hin, rfl, rfl⟩
    · rintro ⟨_, hin, rfl, rfl⟩
      exact ⟨hin, rfl⟩
  | _ => simp [removeAt?]

/-- One step can be removed if it leads to something. -/
theorem isSome_removeAt?_singleton : (d.removeAt? [step]).isSome = (d.child? step).isSome := by
  unfold removeAt? child?
  split
  · split <;> simp_all [Fields.contains]
  · split <;> simp_all
  · rfl

/-! ## A whole path -/

/-- **What can be removed is what is there**, but for the document itself. -/
theorem isSome_removeAt?_iff : ∀ (path : Path) {d : Document},
    (d.removeAt? path).isSome = true ↔ path ≠ [] ∧ (d.at? path).isSome = true
  | [], _ => by simp [removeAt?]
  | [step], d => by simp [isSome_removeAt?_singleton]
  | step :: next :: rest, d => by
    rw [removeAt?_cons (List.cons_ne_nil next rest), at?_cons]
    cases d.child? step with
    | none => simp
    | some inner =>
      have hinner := isSome_removeAt?_iff (next :: rest) (d := inner)
      simp only [Option.bind_some, Option.isSome_map]
      simpa using hinner

/-- **A removal changes one value and what is around it.** What is in front of any part of the path is
changed as if it alone were the document. -/
theorem removeAt?_append {back : Path} (hback : back ≠ []) : ∀ (front : Path) {d e : Document},
    d.removeAt? (front ++ back) = some e →
      ∃ whole left, whole.removeAt? back = some left ∧ Replaced front whole left d e
  | [], d, e, h => by
    refine ⟨d, e, h, rfl, rfl, fun other hother => ?_⟩
    exact absurd List.nil_prefix hother.1
  | step :: front, d, e, h => by
    have hrest : front ++ back ≠ [] := by simp [hback]
    rw [List.cons_append, removeAt?_cons hrest] at h
    -- The removal was in the inner value, and what it left was put back.
    obtain ⟨inner, hstep, h⟩ := Option.bind_eq_some_iff.mp h
    obtain ⟨left, hleft, rfl⟩ := Option.map_eq_some_iff.mp h
    obtain ⟨whole, kept, hremoved, hreplaced⟩ := removeAt?_append hback front hleft
    exact ⟨whole, kept, hremoved, hreplaced.under hstep⟩

theorem Ordered.at? : ∀ (path : Path) {d e : Document}, d.Ordered → d.at? path = some e → e.Ordered
  | [], _, _, hd, h => Option.some.inj h ▸ hd
  | _ :: rest, _, _, hd, h => by
    obtain ⟨inner, hinner, h⟩ := Option.bind_eq_some_iff.mp h
    exact Ordered.at? rest (hd.child? hinner) h

/-! ## What is gone and what is left -/

/-- The second document is the first one without one of its keys: nothing is there any more, and all
other paths lead to something if they did, which is the same but for what was around the key. -/
structure WithoutKey (front : Path) (name : String) (d e : Document) : Prop where
  mapping : ∃ fields : Fields, Replaced front (map fields) (map (fields.erase name)) d e
  gone : ∀ rest, e.at? (front ++ .key name :: rest) = none
  present : ∀ other, ¬ front ++ [.key name] <+: other →
    (e.at? other).isSome = (d.at? other).isSome
  kept : ∀ other, ¬ front ++ [.key name] <+: other → ¬ other <+: front → e.at? other = d.at? other

/-- The second document is the first one without one item of a list: the items behind it are found
one position earlier, and nothing beside the list has changed. -/
structure WithoutItem (front : Path) (i : Nat) (d e : Document) : Prop where
  items : ∃ items : List Document, i < items.length ∧
    Replaced front (list items) (list (items.eraseIdx i)) d e
  moved : ∀ j rest, e.at? (front ++ .index j :: rest) =
    d.at? (front ++ .index (if j < i then j else j + 1) :: rest)

theorem withoutKey_of_removeAt? {front : Path} {name : String} (hd : d.Ordered)
    (h : d.removeAt? (front ++ [.key name]) = some e) : WithoutKey front name d e := by
  obtain ⟨whole, left, hremoved, hreplaced⟩ := removeAt?_append (List.cons_ne_nil _ _) front h
  obtain ⟨fields, -, rfl, rfl⟩ := removeAt?_key.mp hremoved
  have hascending : fields.Ascending := (hd.at? front hreplaced.before).1
  have herased := Fields.get?_erase hascending name
  -- Inside the mapping, a first step other than the key leads to what it led to.
  have hinside : ∀ first rest, first ≠ .key name →
      e.at? (front ++ first :: rest) = d.at? (front ++ first :: rest) := by
    intro first rest hfirst
    rw [at?_append, at?_append, hreplaced.before, hreplaced.after]
    simp only [Option.bind_some, at?_cons]
    cases first with
    | index i => rfl
    | key k =>
      have hk : k ≠ name := fun hk => hfirst (congrArg Step.key hk)
      rw [child?_map_key, child?_map_key, herased, if_neg hk]
  have hkept : ∀ other, ¬ front ++ [.key name] <+: other → ¬ other <+: front →
      e.at? other = d.at? other := by
    intro other hout hon
    by_cases hin : front <+: other
    · obtain ⟨back, rfl⟩ := hin
      cases back with
      | nil => exact absurd (by simp) hon
      | cons first rest =>
        apply hinside
        rintro rfl
        exact hout (by simp)
    · exact hreplaced.beside other ⟨hin, hon⟩
  refine ⟨⟨fields, hreplaced⟩, fun rest => ?_, fun other hout => ?_, hkept⟩
  · rw [at?_append, hreplaced.after]
    simp only [Option.bind_some, at?_cons, child?_map_key, herased, if_pos, Option.bind_none]
  · by_cases hon : other <+: front
    · -- What was around the key is still there, if not as it was.
      obtain ⟨back, rfl⟩ := hon
      obtain ⟨_, _, hbefore, hafter, -⟩ := hreplaced.around
      rw [hbefore, hafter]
      rfl
    · rw [hkept other hout hon]

theorem withoutItem_of_removeAt? {front : Path} {i : Nat}
    (h : d.removeAt? (front ++ [.index i]) = some e) : WithoutItem front i d e := by
  obtain ⟨whole, left, hremoved, hreplaced⟩ := removeAt?_append (List.cons_ne_nil _ _) front h
  obtain ⟨items, hin, rfl, rfl⟩ := removeAt?_index.mp hremoved
  refine ⟨⟨items, hin, hreplaced⟩, fun j rest => ?_⟩
  rw [at?_append, at?_append, hreplaced.before, hreplaced.after]
  simp only [Option.bind_some, at?_cons, child?_list_index, List.getElem?_eraseIdx]
  split <;> rfl

/-- **A removal takes one value away.** It does so exactly if the path leads to something and is not
the empty one, and the facts of an instance stay as they are otherwise. A key is gone with what was
bound to it and an item of a list with those behind it moved up. What was around the value is as if
the removal had been in it alone. -/
theorem removeAt?_takes_one {d : Document} (hd : d.Ordered) (path : Path) :
    ((d.removeAt? path).isSome = true ↔ path ≠ [] ∧ (d.at? path).isSome = true) ∧
    (d.removeAt? path = none → ∀ text, Path.read text = .ok path →
      Plugin.removePaths d [text] = (d, [])) ∧
    ∀ e, d.removeAt? path = some e →
      (∀ front name, path = front ++ [.key name] → WithoutKey front name d e) ∧
      (∀ front i, path = front ++ [.index i] → WithoutItem front i d e) ∧
      ∀ front back, path = front ++ back → back ≠ [] →
        e.at? front = (d.at? front).bind (·.removeAt? back) := by
  refine ⟨isSome_removeAt?_iff path, fun hnone text hread => ?_, fun e h => ⟨?_, ?_, ?_⟩⟩
  · simp [Plugin.removePaths, hread, hnone]
  · rintro front name rfl
    exact withoutKey_of_removeAt? hd h
  · rintro front i rfl
    exact withoutItem_of_removeAt? h
  · rintro front back rfl hback
    obtain ⟨whole, left, hremoved, hreplaced⟩ := removeAt?_append hback front h
    rw [hreplaced.before, hreplaced.after]
    exact hremoved.symm

/-- A mapping with a list of three items. -/
private def counted : Document :=
  map [("a", map [("b", int 1), ("c", list [int 1, int 2, int 3])])]

private theorem ordered_counted : counted.Ordered := by
  have hkeys : Fields.Ascending [("b", int 1), ("c", list [int 1, int 2, int 3])] :=
    List.pairwise_pair.mpr (by decide +kernel)
  have hitems : AllOrdered [int 1, int 2, int 3] := ⟨trivial, trivial, trivial, trivial⟩
  exact ⟨List.pairwise_singleton .., ⟨hkeys, trivial, hitems, trivial⟩, trivial⟩

/-- The second of three items is taken away, and the third one stands in its place. -/
theorem removeAt?_takes_one_middle :
    counted.Ordered ∧
      counted.removeAt? [.key "a", .key "c", .index 1] =
        some (map [("a", map [("b", int 1), ("c", list [int 1, int 3])])]) ∧
      WithoutItem [.key "a", .key "c"] 1 counted
        (map [("a", map [("b", int 1), ("c", list [int 1, int 3])])]) := by
  have hremoved : counted.removeAt? [.key "a", .key "c", .index 1] =
      some (map [("a", map [("b", int 1), ("c", list [int 1, int 3])])]) := by rfl
  obtain ⟨-, hitem, -⟩ := (removeAt?_takes_one ordered_counted _).2.2 _ hremoved
  exact ⟨ordered_counted, hremoved, hitem [.key "a", .key "c"] 1 rfl⟩

end SoftwareCensus.Document
