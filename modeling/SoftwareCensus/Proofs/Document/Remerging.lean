import SoftwareCensus.Proofs.Document.Merging

/-!
# Merging Again

After a second merge with the same update all is as after the first, unless the policy puts lists one
behind the other. The shortcut may be taken in the second merge where it was not taken in the first:
the first merge can come to something equal to the update. Then it is the update, unless old lists
are kept; a zero in such a list can have the other sign in the update.

## Main results

* `mergeValue_of_same` : a merge whose result is equal to the update is the update
* `Likeness.mergeValue_again` : how like the second merge is to the first
* `merge_again` : after a second merge with the same update all is as after the first
-/

namespace SoftwareCensus.Document

open Fields ListMerge

variable {policy : ListMerge}

/-! ## Lists -/

/-- A list that was combined does not change when it is combined with the same list again. -/
theorem combine_again (happend : policy ≠ .append) (hprepend : policy ≠ .prepend)
    {items others : List Document} (hothers : sameItems others others = true) :
    policy.combine (policy.combine items others) others = policy.combine items others := by
  have hnone := without_of_sameItems hothers
  -- The policies that keep the old items leave out those that are in the new list, and nothing else
  -- is doubled.
  cases policy with
  | append => exact absurd rfl happend
  | prepend => exact absurd rfl hprepend
  | replace | keep => rfl
  | appendRp =>
    show without (without items others ++ others) others ++ others = without items others ++ others
    rw [without_append, without_without, hnone, List.append_nil]
  | prependRp =>
    show others ++ without (others ++ without items others) others = others ++ without items others
    rw [without_append, without_without, hnone, List.nil_append]

theorem combine_self (happend : policy ≠ .append) (hprepend : policy ≠ .prepend)
    {others : List Document} (hothers : sameItems others others = true) :
    policy.combine others others = others := by
  cases policy with
  | append => exact absurd rfl happend
  | prepend => exact absurd rfl hprepend
  | keep => rfl
  | replace => exact combine_of_sameItems (.inl rfl) hothers
  | appendRp => exact combine_of_sameItems (.inr (.inl rfl)) hothers
  | prependRp => exact combine_of_sameItems (.inr (.inr rfl)) hothers

/-- Unless the old list is kept, a combined list that is equal to the new one is the new one: there
is no room in it for anything else. -/
theorem combine_of_same (hkeep : policy ≠ .keep) {items others : List Document}
    (h : sameItems (policy.combine items others) others = true) :
    policy.combine items others = others := by
  have hlength := length_eq_of_sameItems h
  -- All other policies put the new list into the combined one, so the lengths tell that nothing
  -- else is there.
  have hnil : ∀ more : List Document, more.length + others.length = others.length → more = [] :=
    fun more hmore => List.eq_nil_of_length_eq_zero (Nat.add_eq_right.mp hmore)
  cases policy with
  | keep => exact absurd rfl hkeep
  | replace => rfl
  | append | appendRp =>
    rw [combine, List.length_append] at hlength
    rw [combine, hnil _ hlength, List.nil_append]
  | prepend | prependRp =>
    rw [combine, List.length_append, Nat.add_comm] at hlength
    rw [combine, hnil _ hlength, List.append_nil]

/-! ## Values -/

/-- A value that is merged with itself stays as it is. -/
theorem mergeValue_self (happend : policy ≠ .append) (hprepend : policy ≠ .prepend) {room : Nat}
    {new : Document} (hnew : WellFormed room new) : mergeValue policy (some new) new = new := by
  have hself := same_self new hnew.isJson
  -- A mapping is taken by the shortcut, a list is combined with itself.
  cases new with
  | map update =>
    have hequal : sameFields update update = true := hself
    rw [mergeValue, hequal, Bool.or_true, if_pos rfl]
  | list others => exact congrArg list (combine_self happend hprepend hself)
  | _ => rfl

/-- Unless old lists are kept, a merge whose result is equal to the update is the update. -/
theorem mergeValue_of_same (hkeep : policy ≠ .keep) (new : Document) {old : Document} {room : Nat}
    (hold : WellFormed room old) (hnew : WellFormed room new)
    (hsame : same (mergeValue policy (some old) new) new = true) :
    mergeValue policy (some old) new = new := by
  induction new using map_induction generalizing old room with
  | leaf new hleaf =>
    cases new with
    | map update => cases hleaf
    | list others =>
      cases old with
      | list items => exact congrArg list (combine_of_same hkeep hsame)
      | _ => rfl
    | _ => rfl
  | node update ih =>
    cases old with
    | map base =>
      rw [← map_mergeFields, mergeFields] at hsame ⊢
      split
      · rfl
      case isFalse hfull =>
        rw [if_neg hfull, mergeEntries_eq] at hsame
        rw [mergeEntries_eq]
        refine congrArg map (Ascending.ext (hold.ascending.mergeWith update) hnew.ascending ?_)
        intro key
        have hkey := get?_of_sameFields hsame key
        rw [get?_mergeWith hnew.ascending.keys_nodup] at hkey ⊢
        -- A key that the update has not would be in the result and not in the update, so the base
        -- has it not either.
        cases hgetNew : Fields.get? update key with
        | none =>
          rw [hgetNew] at hkey
          generalize Fields.get? base key = bound at hkey
          cases hkey
          rfl
        | some new =>
          rw [hgetNew] at hkey
          -- A key that is new has the value of the update; one that both have is below, where the
          -- result is equal too.
          cases hgetOld : Fields.get? base key with
          | none => exact congrArg some (mergeValue_none new)
          | some old =>
            rw [hgetOld] at hkey
            cases hkey with
            | some hkey =>
              exact congrArg some (ih (key, new) (mem_of_get? hgetNew) (hold.value hgetOld)
                (hnew.value hgetNew) hkey)
    | _ => rfl

theorem mergeValue_again_of_leaf (happend : policy ≠ .append) (hprepend : policy ≠ .prepend)
    {room : Nat} {old new : Document} (hleaf : new.isMap = false) (hnew : WellFormed room new) :
    mergeValue policy (some (mergeValue policy (some old) new)) new =
      mergeValue policy (some old) new := by
  cases new with
  | map update => cases hleaf
  | list others =>
    have hself : sameItems others others = true := same_self _ hnew.isJson
    cases old with
    | list items => exact congrArg list (combine_again happend hprepend hself)
    | _ => exact congrArg list (combine_self happend hprepend hself)
  | _ => rfl

/-! ## The second merge -/

/-- Merging the same update again, key by key. -/
theorem Likeness.mergeWith_again {r : Document → Document → Prop} (hlike : Likeness r)
    {f : Option Document → Document → Document} (hf : ∀ new, f none new = new) {base update : Fields}
    {room : Nat} (hbase : WellFormed room (map base)) (hupdate : WellFormed room (map update))
    (hself : ∀ key new, update.get? key = some new → f (some new) new = new)
    (hagain : ∀ key old new, base.get? key = some old → update.get? key = some new →
      r (f (some (f (some old) new)) new) (f (some old) new)) :
    r (map (mergeWith f (mergeWith f base update) update)) (map (mergeWith f base update)) := by
  have hkeys := hupdate.ascending.keys_nodup
  have hmerged : (mergeWith f base update).Ascending := hbase.ascending.mergeWith update
  rw [hlike.map_iff_get? (hmerged.mergeWith update) hmerged]
  intro key
  rw [get?_mergeWith hkeys, get?_mergeWith hkeys]
  -- A key that is not in the update is not touched by either merge.
  cases hnew : update.get? key with
  | none =>
    cases hold : base.get? key with
    | none => exact .none
    | some old => exact .some (hlike.self (hbase.value hold).isJson)
  | some new =>
    refine .some ?_
    show r (f (some (f (base.get? key) new)) new) (f (base.get? key) new)
    cases hold : base.get? key with
    | none =>
      rw [hf, hself key new hnew]
      exact hlike.self (hupdate.value hnew).isJson
    | some old => exact hagain key old new hold hnew

/-- A second merge with the same update comes to what is like the first, if an update is like the
first merge wherever it is equal to it. -/
theorem Likeness.mergeValue_again {r : Document → Document → Prop} (hlike : Likeness r)
    (happend : policy ≠ .append) (hprepend : policy ≠ .prepend)
    (hcut : ∀ {room : Nat} {old new : Document}, WellFormed room old → WellFormed room new →
      same (mergeValue policy (some old) new) new = true → r new (mergeValue policy (some old) new))
    (new : Document) {old : Document} {room : Nat} (hold : WellFormed room old)
    (hnew : WellFormed room new) :
    r (mergeValue policy (some (mergeValue policy (some old) new)) new)
      (mergeValue policy (some old) new) := by
  induction new using map_induction generalizing old room with
  | leaf new hleaf =>
    rw [mergeValue_again_of_leaf happend hprepend hleaf hnew, mergeValue_of_leaf hleaf]
    exact hlike.self (isJson_plainMergeValue_of_leaf hleaf hold.isJson hnew.isJson)
  | node update ih =>
    -- Where the first merge took the update as it is, the second one does so again.
    have hwhole : mergeValue policy (some old) (map update) = map update →
        r (mergeValue policy (some (mergeValue policy (some old) (map update))) (map update))
          (mergeValue policy (some old) (map update)) := by
      intro hfirst
      rw [hfirst, mergeValue_self happend hprepend hnew]
      exact hlike.self hnew.isJson
    cases old with
    | map base =>
      by_cases hfull : (base.isEmpty || sameFields base update) = true
      · exact hwhole (by rw [mergeValue, if_pos hfull])
      · have hequal := hcut hold hnew
        have hne : mergeWith (mergeValue policy) base update ≠ [] :=
          mergeWith_ne_nil hnew.ascending.keys_nodup fun hnil => hfull (by rw [hnil]; rfl)
        rw [mergeValue, if_neg hfull, mergeEntries_eq] at hequal ⊢
        rw [mergeValue]
        split
        case isTrue hsecond =>
          -- The second merge may take the update as it is where the first one did not.
          exact hequal (((Bool.or_eq_true ..).mp hsecond).resolve_left fun hempty =>
            hne (List.isEmpty_iff.mp hempty))
        case isFalse =>
          rw [mergeEntries_eq]
          refine hlike.mergeWith_again mergeValue_none hold hnew (fun key new hgetNew => ?_)
            fun key old new hgetOld hgetNew => ?_
          · exact mergeValue_self happend hprepend (hnew.value hgetNew)
          · exact ih (key, new) (mem_of_get? hgetNew) (hold.value hgetOld) (hnew.value hgetNew)
    | _ => exact hwhole rfl

/-- **A second merge with the same update changes nothing** but the signs of zeros in lists that are
kept, unless lists are put one behind the other. What is no mapping is replaced by the update, and
stays as it is, too. -/
theorem merge_again {policy : ListMerge} (happend : policy ≠ .append) (hprepend : policy ≠ .prepend)
    {base update : Fields} {room : Nat} (hbase : WellFormed room (map base))
    (hupdate : WellFormed room (map update)) :
    same (map (mergeFields policy (mergeFields policy base update) update))
      (map (mergeFields policy base update)) = true ∧
    (policy ≠ .keep → mergeFields policy (mergeFields policy base update) update =
      mergeFields policy base update) ∧
    ∀ facts : Document, facts.isMap = false →
      mergeInto policy (mergeInto policy facts update) update = mergeInto policy facts update := by
  have hagain : ∀ {r : Document → Document → Prop}, Likeness r →
      (∀ {room : Nat} {old new : Document}, WellFormed room old → WellFormed room new →
        same (mergeValue policy (some old) new) new = true →
          r new (mergeValue policy (some old) new)) →
      r (map (mergeFields policy (mergeFields policy base update) update))
        (map (mergeFields policy base update)) := by
    intro r hlike hcut
    rw [map_mergeFields, map_mergeFields]
    exact hlike.mergeValue_again happend hprepend hcut (map update) hbase hupdate
  -- With the equality of the program the shortcut does no harm, and with equality proper only if
  -- old lists are not kept.
  refine ⟨hagain likeness_same fun _ _ hsame => (same_comm ..).trans hsame, fun hkeep => ?_,
    fun facts hfacts => ?_⟩
  · refine map.inj (hagain likeness_eq fun {_ _ new} hold hnew hsame => ?_)
    exact (mergeValue_of_same hkeep new hold hnew hsame).symm
  · have hreplaced : mergeInto policy facts update = map update := by
      cases facts with
      | map fields => cases hfacts
      | _ => rfl
    rw [hreplaced, mergeInto, map_mergeFields, mergeValue_self happend hprepend hupdate]

/-- A list with a zero, and an update that has the other zero in its place. -/
private def zeros : Fields := [("l", .list [.float ⟨0⟩])]

private def otherZeros : Fields := [("l", .list [.float ⟨0x8000000000000000⟩]), ("y", .int 2)]

private theorem wellFormed_zeros : WellFormed 2 (map zeros) where
  ordered := by simp [zeros, Ordered, ValuesOrdered, AllOrdered, Fields.Ascending]
  isJson := by simp [zeros, IsJson, ValuesAreJson, AreJson]; decide

private theorem wellFormed_otherZeros : WellFormed 2 (map otherZeros) where
  ordered := by
    have hkeys : otherZeros.Ascending := List.pairwise_pair.mpr (by decide +kernel)
    exact ⟨hkeys, ⟨trivial, trivial⟩, trivial, trivial⟩
  isJson := by simp [otherZeros, IsJson, ValuesAreJson, AreJson]; decide

theorem merge_again_zeros :
    ListMerge.keep ≠ .append ∧ ListMerge.keep ≠ .prepend ∧
      WellFormed 2 (map zeros) ∧ WellFormed 2 (map otherZeros) ∧
      same (map (mergeFields .keep (mergeFields .keep zeros otherZeros) otherZeros))
        (map (mergeFields .keep zeros otherZeros)) = true :=
  ⟨by decide, by decide, wellFormed_zeros, wellFormed_otherZeros,
    (merge_again (by decide) (by decide) wellFormed_zeros wellFormed_otherZeros).1⟩

/-- The first merge keeps the zero of the old list, and the second one takes that of the update. -/
theorem kept_zero_changes_sign :
    mergeFields .keep zeros otherZeros = [("l", .list [.float ⟨0⟩]), ("y", .int 2)] ∧
      mergeFields .keep (mergeFields .keep zeros otherZeros) otherZeros = otherZeros ∧
      mergeFields .keep (mergeFields .keep zeros otherZeros) otherZeros ≠
        mergeFields .keep zeros otherZeros := by
  have hfirst : mergeFields .keep zeros otherZeros =
      [("l", .list [.float ⟨0⟩]), ("y", .int 2)] := by rfl
  have hsecond : mergeFields .keep [("l", .list [.float ⟨0⟩]), ("y", .int 2)] otherZeros =
      otherZeros := by rfl
  rw [hfirst, hsecond]
  refine ⟨rfl, rfl, ?_⟩
  simp [otherZeros]

end SoftwareCensus.Document
