import SoftwareCensus.Proofs.Document.Equality

/-!
# Merging One Mapping over Another

A merge goes through the entries of the update, and the value that it binds to a key depends on what
the mapping had there. So a merge is described key by key, and so is its difference to another one.

The shortcut takes the update as it is where the mapping is equal to it. What it passes over are the
lists inside: those that the policy appends or prepends would have become longer.

## Main results

* `get?_plainMerge` : a merge without the shortcut, key by key
* `like_mergeValue_iff` : where the merge with the shortcut is like the one without
* `merge_passes_over_lists` : for which policies the shortcut makes no difference
-/

namespace SoftwareCensus

namespace Fields

/-! ## Merging key by key -/

/-- Binds every entry of an update, to a value that depends on what the mapping had under its key. -/
def mergeWith (value : Option Document → Document → Document) (base update : Fields) : Fields :=
  update.foldl (fun acc (k, v) => acc.insert k (value (acc.get? k) v)) base

variable {value : Option Document → Document → Document} {base update : Fields}

/-- What is bound to a key after a merge depends on the two values under that key alone. -/
theorem get?_mergeWith (h : update.keys.Nodup) (base : Fields) (key : String) :
    (mergeWith value base update).get? key =
      ((update.get? key).map (value (base.get? key))).or (base.get? key) := by
  -- By induction on the update, over all mappings that it may be merged over.
  induction update generalizing base with
  | nil => rfl
  | cons entry rest ih =>
    obtain ⟨bound, v⟩ := entry
    obtain ⟨hbound, hrest⟩ := List.nodup_cons.mp h
    show (mergeWith value (base.insert bound _) rest).get? key = _
    rw [ih hrest, get?_insert, get?_cons]
    by_cases hkey : key = bound
    · obtain rfl := hkey
      -- The other entries of the update leave this key alone.
      have hnone : get? rest key = none :=
        get?_eq_none fun entry hentry heq => hbound (List.mem_map.mpr ⟨entry, hentry, heq⟩)
      rw [hnone, if_pos rfl, if_pos rfl]
      rfl
    · rw [if_neg hkey, if_neg (Ne.symm hkey)]

/-- A merge keeps the order of the keys. -/
theorem Ascending.mergeWith (h : base.Ascending) (update : Fields) :
    (Fields.mergeWith value base update).Ascending := by
  induction update generalizing base with
  | nil => exact h
  | cons entry rest ih => exact ih (h.insert _ _)

/-- Merging something into nothing gives what was merged, if its values stay as they are. -/
theorem mergeWith_nil (h : update.Ascending) (hvalue : ∀ v, value none v = v) :
    mergeWith value [] update = update := by
  refine Ascending.ext (Ascending.mergeWith List.Pairwise.nil update) h fun key => ?_
  rw [get?_mergeWith h.keys_nodup]
  cases update.get? key with
  | none => rfl
  | some v => exact congrArg some (hvalue v)

/-- No key is taken out of a mapping. -/
theorem mergeWith_ne_nil (h : update.keys.Nodup) (hbase : base ≠ []) :
    mergeWith value base update ≠ [] := by
  intro hnil
  cases base with
  | nil => exact hbase rfl
  | cons entry rest =>
    -- The first key of the mapping has a value after the merge, too.
    have hentry : (mergeWith value (entry :: rest) update).get? entry.1 = _ := get?_mergeWith h ..
    rw [hnil, get?_cons, if_pos rfl] at hentry
    exact Option.some_ne_none _ (Option.or_eq_none_iff.mp hentry.symm).2

end Fields

namespace Document

open Fields ListMerge

variable {policy : ListMerge}

/-- The merge with the shortcut at every value goes entry by entry. -/
theorem mergeEntries_eq (base update : Fields) :
    mergeEntries policy base update = mergeWith (mergeValue policy) base update := by
  induction update generalizing base with
  | nil => rfl
  | cons entry rest ih => exact ih _

/-- The merge without any shortcut goes entry by entry, too. -/
theorem plainMerge_eq (base update : Fields) :
    plainMerge policy base update = mergeWith (plainMergeValue policy) base update := by
  induction update generalizing base with
  | nil => rfl
  | cons entry rest ih => exact ih _

/-- Where nothing was, a value is bound as it is. -/
theorem mergeValue_none (new : Document) : mergeValue policy none new = new := by
  cases new <;> rfl

/-- Without the shortcut, too, a value is bound as it is where nothing was. -/
theorem plainMergeValue_none (new : Document) : plainMergeValue policy none new = new := by
  cases new <;> rfl

/-- Merging entries is merging the mappings that have them. -/
theorem map_mergeFields (base update : Fields) :
    map (mergeFields policy base update) = mergeValue policy (some (map base)) (map update) := by
  rw [mergeFields, mergeValue, apply_ite map]

/-- What is bound to a key after a merge without a shortcut, given what was bound to it in the
mapping and in the update. -/
def joined (policy : ListMerge) : Option Document → Option Document → Option Document
  | old, none => old
  | none, some new => some new
  | some (map base), some (map update) => some (map (plainMerge policy base update))
  | some (list items), some (list others) => some (list (policy.combine items others))
  | some _, some new => some new

/-- **A merge without a shortcut, key by key.** -/
theorem get?_plainMerge {update : Fields} (h : update.Ascending) (base : Fields) (key : String) :
    (plainMerge policy base update).get? key =
      joined policy (base.get? key) (update.get? key) := by
  rw [plainMerge_eq, get?_mergeWith h.keys_nodup]
  -- Both values may be missing, and of two values each may be of any kind.
  cases base.get? key with
  | none => cases update.get? key with
    | none => rfl
    | some new => cases new <;> rfl
  | some old => cases update.get? key with
    | none => rfl
    | some new => cases old <;> cases new <;> rfl

/-- Documents are mappings of documents, or else there is nothing to go through in a merge. -/
theorem map_induction {P : Document → Prop} (leaf : ∀ d, d.isMap = false → P d)
    (node : ∀ fields, (∀ entry ∈ fields, P entry.2) → P (map fields)) (d : Document) : P d := by
  cases d with
  | map fields => exact node fields fun entry _ => map_induction leaf node entry.2
  | _ => exact leaf _ rfl
termination_by sizeOf d
decreasing_by
  obtain ⟨k, d⟩ := entry
  have hentry := List.sizeOf_lt_of_mem ‹(k, d) ∈ fields›
  simp only [Prod.mk.sizeOf_spec, map.sizeOf_spec] at hentry ⊢
  omega

/-- Whatever the policy, the items of a combined list come from the two lists. -/
theorem mem_of_mem_combine {items others : List Document} {d : Document}
    (h : d ∈ policy.combine items others) : d ∈ items ∨ d ∈ others := by
  -- Leaving items out leaves items of the old list.
  have hwithout : d ∈ without items others → d ∈ items := fun h => (List.mem_filter.mp h).1
  cases policy with
  | replace => exact .inr h
  | keep => exact .inl h
  | append => exact List.mem_append.mp h
  | prepend => exact (List.mem_append.mp h).symm
  | appendRp => exact (List.mem_append.mp h).imp_left hwithout
  | prependRp => exact (List.mem_append.mp h).symm.imp_left hwithout

/-- The shortcut is about mappings only. -/
theorem mergeValue_of_leaf {old new : Document} (hleaf : new.isMap = false) :
    mergeValue policy (some old) new = plainMergeValue policy (some old) new := by
  cases new with
  | map update => cases hleaf
  | list others => cases old <;> rfl
  | _ => rfl

/-- Where the new value is no mapping, a merge makes JSON of JSON. -/
theorem isJson_plainMergeValue_of_leaf {room : Nat} {old new : Document} (hleaf : new.isMap = false)
    (hold : old.IsJson room) (hnew : new.IsJson room) :
    (plainMergeValue policy (some old) new).IsJson room := by
  cases new with
  | map update => cases hleaf
  | list others =>
    cases old with
    -- Two lists combine; anything else is replaced by the new list.
    | list items =>
      refine ⟨hnew.1, areJson_iff.mpr fun d hd => ?_⟩
      exact (mem_of_mem_combine hd).elim (areJson_iff.mp hold.2 d) (areJson_iff.mp hnew.2 d)
    | _ => exact hnew
  | _ => exact hnew

/-- What holds of every document that is read from JSON: its mappings are in order, and it can be
written as JSON again. -/
structure WellFormed (room : Nat) (d : Document) : Prop where
  ordered : d.Ordered
  isJson : d.IsJson room

namespace WellFormed

variable {room : Nat} {fields : Fields}

/-- The keys of a mapping are in order. -/
theorem ascending (h : WellFormed room (map fields)) : fields.Ascending := h.ordered.1

/-- The values of a mapping are well formed, with a pair of brackets less around them. -/
theorem value (h : WellFormed room (map fields)) {key : String} {d : Document}
    (hget : fields.get? key = some d) : WellFormed (room - 1) d where
  ordered := h.ordered.of_get? hget
  isJson := valuesAreJson_iff.mp h.isJson.2 _ (mem_of_get? hget)

end WellFormed

/-- A list is well formed if its items are, with room for one more pair of brackets. -/
theorem wellFormed_list_iff {room : Nat} {items : List Document} :
    WellFormed room (list items) ↔ 0 < room ∧ ∀ d ∈ items, WellFormed (room - 1) d := by
  constructor
  · intro h
    refine ⟨h.isJson.1, fun d hd => ?_⟩
    exact ⟨allOrdered_iff.mp h.ordered d hd, areJson_iff.mp h.isJson.2 d hd⟩
  · rintro ⟨hroom, h⟩
    exact ⟨allOrdered_iff.mpr fun d hd => (h d hd).ordered,
      hroom, areJson_iff.mpr fun d hd => (h d hd).isJson⟩

/-- A mapping is well formed if its keys are in order and its values are well formed. -/
theorem wellFormed_map_iff {room : Nat} {fields : Fields} :
    WellFormed room (map fields) ↔
      0 < room ∧ fields.Ascending ∧ ∀ entry ∈ fields, WellFormed (room - 1) entry.2 := by
  constructor
  · intro h
    refine ⟨h.isJson.1, h.ascending, fun entry hentry => ?_⟩
    exact ⟨valuesOrdered_iff.mp h.ordered.2 entry hentry,
      valuesAreJson_iff.mp h.isJson.2 entry hentry⟩
  · rintro ⟨hroom, hascending, h⟩
    exact ⟨⟨hascending, valuesOrdered_iff.mpr fun entry hentry => (h entry hentry).ordered⟩,
      hroom, valuesAreJson_iff.mpr fun entry hentry => (h entry hentry).isJson⟩

/-! ## Merges side by side -/

/-- Two merges that bind a value as it is where nothing was are alike if they treat every collision
alike. -/
theorem Likeness.mergeWith_iff {r : Document → Document → Prop} (hlike : Likeness r)
    {f g : Option Document → Document → Document} (hf : ∀ new, f none new = new)
    (hg : ∀ new, g none new = new) {base update : Fields} {room : Nat}
    (hbase : WellFormed room (map base)) (hupdate : WellFormed room (map update)) :
    r (map (mergeWith f base update)) (map (mergeWith g base update)) ↔
      ∀ key old new, base.get? key = some old → update.get? key = some new →
        r (f (some old) new) (g (some old) new) := by
  have hkeys := hupdate.ascending.keys_nodup
  rw [hlike.map_iff_get? (hbase.ascending.mergeWith update) (hbase.ascending.mergeWith update)]
  constructor
  -- The two values of a key collide in both merges, and the results are alike under it.
  · intro h key old new hold hnew
    have hkey := h key
    rw [get?_mergeWith hkeys, get?_mergeWith hkeys, hold, hnew] at hkey
    cases hkey with
    | some hkey => exact hkey
  · intro h key
    rw [get?_mergeWith hkeys, get?_mergeWith hkeys]
    -- Only where both mappings have a value the merges can differ at all.
    cases hnew : update.get? key with
    | none =>
      cases hold : base.get? key with
      | none => exact .none
      | some old => exact .some (hlike.self (hbase.value hold).isJson)
    | some new =>
      cases hold : base.get? key with
      | none =>
        refine .some ?_
        rw [hf, hg]
        exact hlike.self (hupdate.value hnew).isJson
      | some old => exact .some (h key old new hold hnew)

/-! ## What the shortcut passes over -/

/-- Two lists in one place of two documents, under the same keys of mappings inside mappings. -/
inductive Opposite : Document → Document → List Document → List Document → Prop
  | here {items others : List Document} : Opposite (list items) (list others) items others
  | under {base update : Fields} {key : String} {old new : Document} {items others : List Document}
    (hold : base.get? key = some old) (hnew : update.get? key = some new)
    (inside : Opposite old new items others) : Opposite (map base) (map update) items others

/-- Two lists that a merge does not come to, because they are opposite each other inside two equal
mappings in one place. -/
inductive PassedOver : Document → Document → List Document → List Document → Prop
  | here {base update : Fields} {items others : List Document}
    (equal : sameFields base update = true)
    (inside : Opposite (map base) (map update) items others) :
    PassedOver (map base) (map update) items others
  | under {base update : Fields} {key : String} {old new : Document} {items others : List Document}
    (hold : base.get? key = some old) (hnew : update.get? key = some new)
    (inside : PassedOver old new items others) : PassedOver (map base) (map update) items others

/-- Lists that are passed over are opposite each other. -/
theorem PassedOver.opposite {old new : Document} {items others : List Document}
    (h : PassedOver old new items others) : Opposite old new items others := by
  induction h with
  | here _ inside => exact inside
  | under hold hnew _ ih => exact .under hold hnew ih

/-- Under every key, equal mappings have equal values or none. -/
theorem get?_of_sameFields {base update : Fields} (h : sameFields base update = true)
    (key : String) :
    Option.Rel (fun old new => same old new = true) (base.get? key) (update.get? key) :=
  rel_get?_of_forall₂ (sameFields_iff.mp h) key

/-- Opposite lists in equal documents are equal. -/
theorem Opposite.sameItems {old new : Document} {items others : List Document}
    (h : Opposite old new items others) (hsame : same old new = true) :
    sameItems items others = true := by
  -- By induction on the place of the lists.
  induction h with
  | here => exact hsame
  | @under base update key old new _ _ hold hnew _ ih =>
    have hkey := get?_of_sameFields hsame key
    rw [hold, hnew] at hkey
    cases hkey with
    | some hkey => exact ih hkey

/-- Lists that are passed over are equal. -/
theorem PassedOver.sameItems {old new : Document} {items others : List Document}
    (h : PassedOver old new items others) : Document.sameItems items others = true := by
  induction h with
  | here equal inside => exact inside.sameItems equal
  | under _ _ _ ih => exact ih

/-- If an equal mapping is there already, a merge binds no new key. -/
theorem mergeWith_snd {base update : Fields} (hbase : base.Ascending)
    (hupdate : update.Ascending) (h : sameFields base update = true) :
    mergeWith (fun _ new => new) base update = update := by
  refine Ascending.ext (hbase.mergeWith update) hupdate fun key => ?_
  have hkey := get?_of_sameFields h key
  rw [get?_mergeWith hupdate.keys_nodup]
  generalize base.get? key = old, update.get? key = new at hkey
  -- The two values are equal, and the update's is bound; or neither mapping has the key.
  cases hkey <;> rfl

variable {r : Document → Document → Prop} (hlike : Likeness r)

include hlike

/-- Over an equal document, a merge without a shortcut is like the update if every list that it
combines is like the one in the update. -/
theorem like_plainMergeValue_iff {room : Nat} (new : Document) {old : Document}
    (hsame : same old new = true) (hold : WellFormed room old) (hnew : WellFormed room new) :
    r new (plainMergeValue policy (some old) new) ↔
      ∀ items others, Opposite old new items others →
        r (list others) (list (policy.combine items others)) := by
  -- By induction on the new document, over all old ones that are equal to it.
  induction new using map_induction generalizing old room with
  | leaf new hleaf =>
    cases new with
    | map update => cases hleaf
    | list others =>
      cases old with
      -- Two lists, which are opposite each other here and nowhere further inside.
      | list items =>
        constructor
        · rintro h _ _ ⟨⟩
          exact h
        · intro h
          exact h items others .here
      | _ => cases hsame
    | _ =>
      -- No lists are opposite each other in values that are neither lists nor mappings.
      refine iff_of_true (hlike.self hnew.isJson) fun items others hopposite => ?_
      cases hopposite
  | node update ih =>
    cases old with
    | map base =>
      have hkeys := hlike.mergeWith_iff (f := fun _ new => new) (g := plainMergeValue policy)
        (fun _ => rfl) plainMergeValue_none hold hnew
      rw [mergeWith_snd hold.ascending hnew.ascending hsame, ← plainMerge_eq] at hkeys
      -- Under each key that both have, the values are equal again.
      have hvalues : ∀ key old new, Fields.get? base key = some old →
          Fields.get? update key = some new →
          (r new (plainMergeValue policy (some old) new) ↔ ∀ items others,
            Opposite old new items others →
              r (list others) (list (policy.combine items others))) := by
        intro key old new hgetOld hgetNew
        have hkey := get?_of_sameFields hsame key
        rw [hgetOld, hgetNew] at hkey
        cases hkey with
        | some hkey =>
          exact ih (key, new) (mem_of_get? hgetNew) hkey (hold.value hgetOld) (hnew.value hgetNew)
      refine hkeys.trans ⟨fun h items others hopposite => ?_, fun h key old new hgetOld hgetNew => ?_⟩
      · cases hopposite with
        | under hgetOld hgetNew hinside =>
          exact (hvalues _ _ _ hgetOld hgetNew).mp (h _ _ _ hgetOld hgetNew) _ _ hinside
      · exact (hvalues _ _ _ hgetOld hgetNew).mpr fun items others hinside =>
          h items others (.under hgetOld hgetNew hinside)
    | _ => cases hsame

/-- **Where a merge is like the one without the shortcut.** -/
theorem like_mergeValue_iff {room : Nat} (new : Document) {old : Document}
    (hold : WellFormed room old) (hnew : WellFormed room new) :
    r (mergeValue policy (some old) new) (plainMergeValue policy (some old) new) ↔
      ∀ items others, PassedOver old new items others →
        r (list others) (list (policy.combine items others)) := by
  induction new using map_induction generalizing old room with
  | leaf new hleaf =>
    -- A value that is no mapping is merged without the shortcut anyway.
    refine iff_of_true ?_ fun items others hpassed => by cases hpassed <;> cases hleaf
    rw [mergeValue_of_leaf hleaf]
    exact hlike.self (isJson_plainMergeValue_of_leaf hleaf hold.isJson hnew.isJson)
  | node update ih =>
    cases old with
    | map base =>
      show r (if base.isEmpty || sameFields base update then map update
        else map (mergeEntries policy base update)) (map (plainMerge policy base update)) ↔ _
      by_cases hempty : base.isEmpty = true
      -- The shortcut for an empty mapping is right: merging over nothing gives the update.
      · obtain rfl := List.isEmpty_iff.mp hempty
        rw [plainMerge_eq, mergeWith_nil hnew.ascending plainMergeValue_none]
        refine iff_of_true (hlike.self hnew.isJson) fun items others hpassed => ?_
        cases hpassed with
        | here _ inside => cases inside with | under hget => cases hget
        | under hget => cases hget
      · by_cases hsame : sameFields base update = true
        · -- All lists inside are passed over, whether there are equal mappings further inside or not.
          have hequal : same (map base) (map update) = true := hsame
          simp only [hsame, Bool.or_true, if_true]
          refine (like_plainMergeValue_iff hlike (map update) hequal hold hnew).trans
            ⟨fun h items others hpassed => h items others hpassed.opposite,
              fun h items others hopposite => h items others (.here hsame hopposite)⟩
        -- No shortcut here, so the merges differ where they do under some key.
        · simp only [hempty, hsame, Bool.or_false, Bool.false_eq_true, if_false]
          rw [mergeEntries_eq, plainMerge_eq,
            hlike.mergeWith_iff mergeValue_none plainMergeValue_none hold hnew]
          constructor
          · intro h items others hpassed
            cases hpassed with
            | here equal => exact absurd equal hsame
            | under hgetOld hgetNew inside =>
              exact (ih _ (mem_of_get? hgetNew) (hold.value hgetOld) (hnew.value hgetNew)).mp
                (h _ _ _ hgetOld hgetNew) _ _ inside
          · intro h key old new hgetOld hgetNew
            exact (ih (key, new) (mem_of_get? hgetNew) (hold.value hgetOld)
              (hnew.value hgetNew)).mpr fun items others inside =>
                h items others (.under hgetOld hgetNew inside)
    | _ =>
      -- What is no mapping is replaced by the update in both merges.
      refine iff_of_true (hlike.self hnew.isJson) fun items others hpassed => ?_
      cases hpassed

omit hlike

/-! ## Lists -/

/-- All items of a list are in an equal one. -/
theorem without_of_sameItems {items others : List Document} (h : sameItems items others = true) :
    without items others = [] := by
  refine List.filter_eq_nil_iff.mpr fun d hd => ?_
  have hany : (others.any fun e => e == d) = true := any_of_sameItems h hd
  simp [hany]

/-- Items are left out one by one. -/
theorem without_append (items more others : List Document) :
    without (items ++ more) others = without items others ++ without more others :=
  List.filter_append ..

/-- Leaving them out twice leaves out no more. -/
theorem without_without (items others : List Document) :
    without (without items others) others = without items others := by
  simp [without]

/-- Where a list is replaced, or its new items are left out, equal lists combine to the new one. -/
theorem combine_of_sameItems {items others : List Document}
    (hpolicy : policy = .replace ∨ policy = .appendRp ∨ policy = .prependRp)
    (h : sameItems items others = true) : policy.combine items others = others := by
  rcases hpolicy with rfl | rfl | rfl
  · rfl
  · exact (congrArg (· ++ others) (without_of_sameItems h)).trans (List.nil_append _)
  · exact (congrArg (others ++ ·) (without_of_sameItems h)).trans (List.append_nil _)

/-- **What the shortcut does to a merge.** A merge without it goes key by key: the value of a key of
one mapping only is kept, two mappings merge, two lists combine by the policy, and the update wins
otherwise. The shortcut makes no difference exactly if each list that it passes over would have
combined to the one in the update. So it makes none where new lists replace old ones or old items are
left out, none but in the signs of zeros where old lists are kept, and lists that are put one behind
the other have to be empty. -/
theorem merge_passes_over_lists {base update : Fields} {room : Nat}
    (hbase : WellFormed room (map base)) (hupdate : WellFormed room (map update)) :
    (∀ policy, (plainMerge policy base update).Ascending ∧ ∀ key,
      (plainMerge policy base update).get? key =
        joined policy (base.get? key) (update.get? key)) ∧
    (∀ policy, mergeFields policy base update = plainMerge policy base update ↔
      ∀ items others, PassedOver (map base) (map update) items others →
        policy.combine items others = others) ∧
    (∀ policy, policy = .replace ∨ policy = .appendRp ∨ policy = .prependRp →
      mergeFields policy base update = plainMerge policy base update) ∧
    same (map (mergeFields .keep base update)) (map (plainMerge .keep base update)) = true ∧
    ∀ policy, policy = .append ∨ policy = .prepend →
      (mergeFields policy base update = plainMerge policy base update ↔
        ∀ items others, PassedOver (map base) (map update) items others → items = []) := by
  -- Identity is a likeness, so the general statement can be read as an equation.
  have hiff : ∀ policy, mergeFields policy base update = plainMerge policy base update ↔
      ∀ items others, PassedOver (map base) (map update) items others →
        policy.combine items others = others := by
    intro policy
    have hvalue : mergeValue policy (some (map base)) (map update) =
        plainMergeValue policy (some (map base)) (map update) ↔ _ :=
      like_mergeValue_iff likeness_eq (map update) hbase hupdate
    rw [← map_mergeFields] at hvalue
    simpa only [plainMergeValue, map.injEq, list.injEq, eq_comm] using hvalue
  refine ⟨fun policy => ⟨?_, get?_plainMerge hupdate.ascending base⟩, hiff,
    fun policy hpolicy => ?_, ?_, fun policy hpolicy => ?_⟩
  · rw [plainMerge_eq]
    exact hbase.ascending.mergeWith update
  · exact (hiff policy).mpr fun items others hpassed =>
      combine_of_sameItems hpolicy hpassed.sameItems
  -- Equality is a likeness, too, and the lists that are passed over are equal.
  · rw [map_mergeFields]
    refine (like_mergeValue_iff likeness_same (map update) hbase hupdate).mpr ?_
    intro items others hpassed
    exact (sameItems_comm others items).trans hpassed.sameItems
  · refine (hiff policy).trans (forall₂_congr fun items others => imp_congr_right fun _ => ?_)
    -- A list put before or behind another one is that list only if the other one is empty.
    rcases hpolicy with rfl | rfl
    · exact eq_comm.trans List.self_eq_append_left
    · exact eq_comm.trans List.self_eq_append_right

/-- A mapping with a list, and an update with an equal one in a mapping that is not equal. -/
private def listed (x : Int) : Fields := [("a", .map [("l", .list [.int 1]), ("x", .int x)])]

private theorem wellFormed_listed {x : Int} (h : Numeral.fits64 x = true) :
    WellFormed 3 (map (listed x)) where
  ordered := by
    have hkeys : "l" < "x" := by decide +kernel
    have hinside : Fields.Ascending [("l", .list [.int 1]), ("x", .int x)] :=
      List.pairwise_pair.mpr hkeys
    exact ⟨List.pairwise_singleton .., ⟨hinside, ⟨trivial, trivial⟩, trivial, trivial⟩, trivial⟩
  isJson := by simp [listed, IsJson, ValuesAreJson, AreJson, h]; decide

/-- The mappings differ beside the lists, so nothing is passed over. -/
theorem merge_passes_over_lists_beside :
    WellFormed 3 (map (listed 2)) ∧ WellFormed 3 (map (listed 3)) ∧
      (mergeFields .append (listed 2) (listed 3) = plainMerge .append (listed 2) (listed 3) ↔
        ∀ items others, PassedOver (map (listed 2)) (map (listed 3)) items others → items = []) :=
  ⟨wellFormed_listed rfl, wellFormed_listed rfl,
    (merge_passes_over_lists (wellFormed_listed rfl) (wellFormed_listed rfl)).2.2.2.2 .append
      (.inl rfl)⟩

/-- A list is not put behind an equal one if there is nothing else in the mappings. -/
theorem append_passes_over_equal_list :
    mergeFields .append [("l", .list [.int 1])] [("l", .list [.int 1])] =
        [("l", .list [.int 1])] ∧
      plainMerge .append [("l", .list [.int 1])] [("l", .list [.int 1])] =
        [("l", .list [.int 1, .int 1])] ∧
      mergeFields .append [("l", .list [.int 1])] [("l", .list [.int 1])] ≠
        plainMerge .append [("l", .list [.int 1])] [("l", .list [.int 1])] := by
  have hmerged : mergeFields .append [("l", .list [.int 1])] [("l", .list [.int 1])] =
      [("l", .list [.int 1])] := by rfl
  have hplain : plainMerge .append [("l", .list [.int 1])] [("l", .list [.int 1])] =
      [("l", .list [.int 1, .int 1])] := by rfl
  refine ⟨hmerged, hplain, ?_⟩
  rw [hmerged, hplain]
  simp

end Document

end SoftwareCensus
