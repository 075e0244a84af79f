import Mathlib.Data.List.Forall2
import Mathlib.Data.String.Basic
import SoftwareCensus.Document.Basic

/-!
# Entries of a Mapping

A mapping is looked at through `Fields.get?`: every operation on entries is described by what it
does to the value under a key. Binding needs nothing for that. Unbinding takes one entry away, so it
needs that no key comes twice, which holds of entries in ascending order.

## Main results

* `Fields.get?_insert`, `Fields.get?_erase` : binding and unbinding touch one key
* `Fields.get?_extend` : of two values of one key the later wins
* `Fields.Ascending.insert`, `Fields.Ascending.erase` : the order of the keys is kept
* `Fields.Ascending.forall₂_iff` : entries are alike one by one if they are alike key by key
* `Fields.Ascending.ext` : ascending entries with the same bindings are the same entries
-/

namespace SoftwareCensus

/-! ## Outcomes of reading

Entries are read one after another, and what comes of them all tells what came of each. -/

section Outcomes

variable {ε α β : Type} {y : β}

/-- A sequence comes to something if both parts do. -/
theorem except_bind_eq_ok {first : Except ε α} {next : α → Except ε β}
    (h : (first >>= next) = .ok y) : ∃ x, first = .ok x ∧ next x = .ok y := by
  cases first with
  | error e => cases h
  | ok x => exact ⟨x, rfl, h⟩

/-- What comes of a change comes of what was changed. -/
theorem except_map_eq_ok {first : Except ε α} {f : α → β} (h : first.map f = .ok y) :
    ∃ x, first = .ok x ∧ f x = y := by
  cases first with
  | error e => cases h
  | ok x => exact ⟨x, rfl, Except.ok.inj h⟩

/-- An outcome that is there does not depend on what errors are turned into. -/
theorem except_mapError_eq_ok {first : Except ε β} {f : ε → α} (h : first.mapError f = .ok y) :
    first = .ok y := by
  cases first with
  | error e => cases h
  | ok x => exact congrArg Except.ok (Except.ok.inj h)

end Outcomes

namespace Fields

/-- Entries whose keys are in strictly ascending order. -/
def Ascending (fields : Fields) : Prop := fields.Pairwise fun entry later => entry.1 < later.1

variable {fields : Fields}

/-! ## Lookups -/

/-- The first entry hides all others with its key. -/
theorem get?_cons (k : String) (v : Document) (rest : Fields) (key : String) :
    get? ((k, v) :: rest) key = if k = key then some v else get? rest key := by
  simp only [get?, beq_iff_eq]

/-- A key that no entry has is not bound. -/
theorem get?_eq_none {key : String} (h : ∀ entry ∈ fields, entry.1 ≠ key) : get? fields key = none := by
  -- By induction on the entries, none of which has the key.
  induction fields with
  | nil => rfl
  | cons entry rest ih =>
    obtain ⟨hentry, hrest⟩ := List.forall_mem_cons.mp h
    rw [get?_cons, if_neg hentry, ih hrest]

/-- A value that is found stands at an entry. -/
theorem mem_of_get? {key : String} {v : Document} (h : get? fields key = some v) :
    (key, v) ∈ fields := by
  induction fields with
  | nil => cases h
  | cons entry rest ih =>
    obtain ⟨bound, w⟩ := entry
    rw [get?_cons] at h
    split at h
    -- The first entry has the key, or the value is found behind it.
    case isTrue hbound =>
      obtain rfl := Option.some.inj h
      exact hbound ▸ List.mem_cons_self ..
    case isFalse hbound => exact List.mem_cons_of_mem _ (ih h)

/-- The keys are those that have a value. -/
theorem mem_keys_iff {key : String} : key ∈ fields.keys ↔ ∃ v, fields.get? key = some v := by
  constructor
  · intro hkey
    induction fields with
    | nil => cases hkey
    | cons entry rest ih =>
      obtain ⟨bound, v⟩ := entry
      rw [get?_cons]
      split
      case isTrue => exact ⟨v, rfl⟩
      -- Another key comes first, and the one in question is among the rest.
      case isFalse hbound => exact ih ((List.mem_cons.mp hkey).resolve_left (Ne.symm hbound))
  · rintro ⟨v, hv⟩
    exact List.mem_map_of_mem (mem_of_get? hv)

/-- **Binding touches one key.** No order of the entries is needed for that. -/
theorem get?_insert (fields : Fields) (key : String) (value : Document) (k : String) :
    (insert fields key value).get? k = if k = key then some value else fields.get? k := by
  induction fields with
  | nil =>
    rw [insert, get?_cons]
    simp only [eq_comm (a := key)]
  | cons entry rest ih =>
    obtain ⟨bound, v⟩ := entry
    rw [insert]
    split
    -- The new entry goes in front.
    · rw [get?_cons]
      simp only [eq_comm (a := key)]
    · split
      -- It takes the place of the first one with its key.
      case isTrue hbound =>
        obtain rfl : bound = key := by simpa using hbound
        rw [get?_cons, get?_cons]
        by_cases h : bound = k
        · simp [h]
        · simp [h, Ne.symm h]
      -- It is bound further down, behind another key.
      case isFalse hbound =>
        have hne : bound ≠ key := by simpa using hbound
        rw [get?_cons, get?_cons, ih]
        by_cases h : bound = k
        · obtain rfl := h
          simp [hne]
        · simp [h]

/-- Unbinding one entry leaves the values of the other keys. -/
theorem get?_erase_ne {key k : String} (h : k ≠ key) (fields : Fields) :
    (erase fields key).get? k = fields.get? k := by
  induction fields with
  | nil => rfl
  | cons entry rest ih =>
    obtain ⟨bound, v⟩ := entry
    rw [erase, get?_cons]
    split
    -- The entry that is taken away has another key.
    case isTrue hbound =>
      obtain rfl : bound = key := by simpa using hbound
      rw [if_neg (Ne.symm h)]
    case isFalse => rw [get?_cons, ih]

/-- In ascending entries a key comes once, so unbinding it leaves no other value of it. -/
theorem get?_erase (h : Ascending fields) (key k : String) :
    (erase fields key).get? k = if k = key then none else fields.get? k := by
  split
  case isFalse hk => exact get?_erase_ne hk fields
  case isTrue hk =>
    subst hk
    induction fields with
    | nil => rfl
    | cons entry rest ih =>
      obtain ⟨bound, v⟩ := entry
      obtain ⟨hfirst, hrest⟩ := List.pairwise_cons.mp h
      rw [erase]
      split
      -- It was the first entry, and the keys behind it are greater.
      case isTrue hbound =>
        obtain rfl : bound = k := by simpa using hbound
        exact get?_eq_none fun entry hentry => ne_of_gt (hfirst entry hentry)
      case isFalse hbound =>
        have hne : bound ≠ k := by simpa using hbound
        rw [get?_cons, if_neg hne, ih hrest]

/-- A choice by keys alone hides all values of the other keys. -/
theorem get?_filter (keep : String → Bool) (fields : Fields) (key : String) :
    get? (fields.filter fun entry => keep entry.1) key =
      if keep key then fields.get? key else none := by
  induction fields with
  | nil => exact (ite_self none).symm
  | cons entry rest ih =>
    obtain ⟨bound, v⟩ := entry
    cases hbound : keep bound with
    -- The first entry is kept, and it decides if it has the key.
    | true =>
      rw [List.filter_cons_of_pos (by simpa using hbound), get?_cons, get?_cons, ih]
      by_cases hkey : bound = key
      · rw [if_pos hkey, if_pos hkey, ← hkey, if_pos hbound]
      · rw [if_neg hkey, if_neg hkey]
    -- It is left out, and if it has the key all others with it are left out, too.
    | false =>
      rw [List.filter_cons_of_neg (by simpa using hbound), get?_cons, ih]
      by_cases hkey : bound = key
      · rw [← hkey, hbound]
        rfl
      · rw [if_neg hkey]

/-- What is stored under a key does not depend on the entries of another one. -/
theorem get?_filter_ne {key other : String} (h : key ≠ other) (fields : Fields) :
    get? (fields.filter fun entry => entry.1 != other) key = fields.get? key := by
  rw [get?_filter (fun name => name != other), if_pos (by simpa using h)]

/-- An entry with another key may stand anywhere. -/
theorem get?_append_cons_ne {key other : String} (h : key ≠ other) (front back : Fields)
    (v : Document) : get? (front ++ (other, v) :: back) key = get? (front ++ back) key := by
  induction front with
  | nil => exact (get?_cons other v back key).trans (if_neg h.symm)
  | cons entry rest ih =>
    obtain ⟨bound, d⟩ := entry
    rw [List.cons_append, List.cons_append, get?_cons, get?_cons, ih]

/-- Entries in front are looked at first. -/
theorem get?_append (fields more : Fields) (key : String) :
    get? (fields ++ more) key = (fields.get? key).or (more.get? key) := by
  induction fields with
  | nil => rfl
  | cons entry rest ih =>
    obtain ⟨k, v⟩ := entry
    rw [List.cons_append, get?_cons, get?_cons, ih]
    split <;> rfl

/-- Adding nothing changes nothing. -/
theorem extend_nil (fields : Fields) : fields.extend [] = fields := rfl

/-- Of several values that are added for one key, the last is there then. -/
theorem get?_extend_reverse (fields updates : Fields) (key : String) :
    (fields.extend updates).get? key = (get? updates.reverse key).or (fields.get? key) := by
  -- By induction on what is added, over all entries that it may be added to.
  induction updates generalizing fields with
  | nil => rfl
  | cons entry rest ih =>
    obtain ⟨k, v⟩ := entry
    rw [List.reverse_cons, get?_append, get?_cons, Option.or_assoc]
    refine (ih _).trans (congrArg (Option.or _) ?_)
    rw [get?_insert]
    by_cases hkey : k = key
    · rw [if_pos hkey, if_pos hkey.symm]
      rfl
    · rw [if_neg hkey, if_neg (Ne.symm hkey)]
      rfl

/-- Where no key comes twice, a value that is added wins over one that was there. -/
theorem get?_extend {updates : Fields} (h : updates.keys.Nodup) (fields : Fields) (key : String) :
    (fields.extend updates).get? key = (updates.get? key).or (fields.get? key) := by
  induction updates generalizing fields with
  | nil => rfl
  | cons entry rest ih =>
    obtain ⟨bound, v⟩ := entry
    obtain ⟨hbound, hrest⟩ := List.nodup_cons.mp h
    show (extend (insert fields bound v) rest).get? key = _
    rw [ih hrest, get?_insert, get?_cons]
    by_cases hkey : bound = key
    · obtain rfl := hkey
      -- The key does not come again among the other updates.
      have hnone : get? rest bound = none :=
        get?_eq_none fun entry hentry heq => hbound (List.mem_map.mpr ⟨entry, hentry, heq⟩)
      rw [hnone, if_pos rfl, if_pos rfl]
      rfl
    · rw [if_neg (Ne.symm hkey), if_neg hkey]

/-! ## The order of the keys -/

/-- A key that comes after all others is bound behind them. -/
theorem insert_of_forall_lt {key : String} (h : ∀ entry ∈ fields, entry.1 < key) (value : Document) :
    insert fields key value = fields ++ [(key, value)] := by
  induction fields with
  | nil => rfl
  | cons entry rest ih =>
    obtain ⟨bound, v⟩ := entry
    obtain ⟨hbound, hrest⟩ := List.forall_mem_cons.mp h
    -- The new key is neither less than the first one nor equal to it.
    have hnot : ¬ key < bound := lt_asymm hbound
    have hne : ¬ (bound == key) = true := by simpa using ne_of_lt hbound
    rw [insert, if_neg hnot, if_neg hne, ih hrest]
    rfl

/-- Binding adds one entry at most. -/
theorem mem_of_mem_insert {key : String} {value : Document} {entry : String × Document}
    (h : entry ∈ insert fields key value) : entry = (key, value) ∨ entry ∈ fields := by
  induction fields with
  | nil =>
    rw [insert, List.mem_singleton] at h
    exact Or.inl h
  | cons first rest ih =>
    obtain ⟨bound, v⟩ := first
    rw [insert] at h
    split at h
    · exact List.mem_cons.mp h
    -- In front, in place of the first entry, or behind it.
    · split at h
      · exact (List.mem_cons.mp h).imp_right (List.mem_cons_of_mem _)
      · rcases List.mem_cons.mp h with rfl | h
        · exact Or.inr (List.mem_cons_self ..)
        · exact (ih h).imp_right (List.mem_cons_of_mem _)

/-- The key of an entry that is there after binding was bound, or the entry was there. -/
theorem fst_of_mem_insert {key : String} {value : Document} {entry : String × Document}
    (h : entry ∈ insert fields key value) : entry.1 = key ∨ entry ∈ fields :=
  (mem_of_mem_insert h).imp_left (congrArg Prod.fst)

/-- What holds of all entries and of a new one holds of all entries when the new one is bound. -/
theorem forall_insert {P : String × Document → Prop} (h : ∀ entry ∈ fields, P entry) {key : String}
    {value : Document} (hnew : P (key, value)) : ∀ entry ∈ insert fields key value, P entry := by
  intro entry hentry
  rcases mem_of_mem_insert hentry with rfl | hold
  · exact hnew
  · exact h entry hold

/-- **Binding keeps the order of the keys.** -/
theorem Ascending.insert (h : Ascending fields) (key : String) (value : Document) :
    Ascending (insert fields key value) := by
  induction fields with
  | nil => exact List.pairwise_singleton _ _
  | cons entry rest ih =>
    obtain ⟨bound, v⟩ := entry
    obtain ⟨hfirst, hrest⟩ := List.pairwise_cons.mp h
    rw [Fields.insert]
    split
    -- The new key comes before the first, and so before all others.
    case isTrue hlt =>
      refine List.pairwise_cons.mpr ⟨?_, h⟩
      intro entry hentry
      rcases List.mem_cons.mp hentry with rfl | hentry
      · exact hlt
      · exact lt_trans hlt (hfirst entry hentry)
    case isFalse hnot =>
      split
      -- The first key stays, with another value.
      case isTrue hbound =>
        obtain rfl : bound = key := by simpa using hbound
        exact List.pairwise_cons.mpr ⟨hfirst, hrest⟩
      case isFalse hbound =>
        have hne : bound ≠ key := by simpa using hbound
        refine List.pairwise_cons.mpr ⟨?_, ih hrest⟩
        intro entry hentry
        -- The first key comes before those behind it, and before the new one by what was compared.
        rcases fst_of_mem_insert hentry with hkey | hentry
        · rw [hkey]
          exact lt_of_le_of_ne (not_lt.mp hnot) hne
        · exact hfirst entry hentry

/-- Unbinding takes an entry away and moves none. -/
theorem erase_sublist (fields : Fields) (key : String) : (erase fields key).Sublist fields := by
  induction fields with
  | nil => exact .refl _
  | cons entry rest ih =>
    obtain ⟨bound, v⟩ := entry
    rw [erase]
    split
    · exact List.sublist_cons_self ..
    · exact ih.cons_cons _

/-- **Unbinding keeps the order of the keys.** -/
theorem Ascending.erase (h : Ascending fields) (key : String) : Ascending (erase fields key) :=
  h.sublist (erase_sublist fields key)

/-- A choice among entries keeps the order of their keys. -/
theorem Ascending.filter (h : Ascending fields) (keep : String × Document → Bool) :
    Ascending (fields.filter keep) :=
  List.Pairwise.filter keep h

/-- Adding entries one after another keeps the order of the keys. -/
theorem Ascending.extend (h : Ascending fields) (updates : Fields) :
    Ascending (fields.extend updates) := by
  induction updates generalizing fields with
  | nil => exact h
  | cons entry rest ih => exact ih (h.insert entry.1 entry.2)

/-- Ascending keys are different. -/
theorem Ascending.keys_nodup (h : Ascending fields) : fields.keys.Nodup :=
  List.pairwise_map.mpr (h.imp ne_of_lt)

/-- Every key comes after the first one. -/
theorem Ascending.get?_eq_none {entry : String × Document} {rest : Fields}
    (h : Ascending (entry :: rest)) {key : String} (hkey : key ≤ entry.1) : get? rest key = none :=
  Fields.get?_eq_none fun later hlater =>
    ne_of_gt (lt_of_le_of_lt hkey ((List.pairwise_cons.mp h).1 later hlater))

/-- No key comes twice, so every entry is found. -/
theorem Ascending.get?_of_mem (h : Ascending fields) {key : String} {v : Document}
    (hentry : (key, v) ∈ fields) : fields.get? key = some v := by
  induction fields with
  | nil => cases hentry
  | cons entry rest ih =>
    obtain ⟨bound, w⟩ := entry
    obtain ⟨hfirst, hrest⟩ := List.pairwise_cons.mp h
    rw [get?_cons]
    -- It is the first entry, or one with a greater key behind it.
    rcases List.mem_cons.mp hentry with heq | hentry
    · cases heq
      exact if_pos rfl
    · rw [if_neg (ne_of_lt (hfirst (key, v) hentry)), ih hrest hentry]

/-- Entries that are alike one by one are alike key by key. -/
theorem rel_get?_of_forall₂ {r : Document → Document → Prop} {others : Fields}
    (h : List.Forall₂ (fun entry other => entry.1 = other.1 ∧ r entry.2 other.2) fields others)
    (key : String) : Option.Rel r (fields.get? key) (others.get? key) := by
  -- By induction on the pairs of entries.
  induction h with
  | nil => exact .none
  | @cons entry other rest later hentry _ ih =>
    obtain ⟨k, v⟩ := entry
    obtain ⟨l, w⟩ := other
    obtain ⟨rfl, hvalue⟩ := hentry
    rw [get?_cons, get?_cons]
    split
    · exact .some hvalue
    · exact ih

/-- For ascending entries the converse holds, too. -/
theorem Ascending.forall₂_iff {r : Document → Document → Prop} {others : Fields}
    (h : Ascending fields) (hothers : Ascending others) :
    List.Forall₂ (fun entry other => entry.1 = other.1 ∧ r entry.2 other.2) fields others ↔
      ∀ key, Option.Rel r (fields.get? key) (others.get? key) := by
  constructor
  · exact rel_get?_of_forall₂
  · intro hget
    -- By induction on the entries of one side, over those of the other.
    induction fields generalizing others with
    | nil =>
      cases others with
      | nil => exact .nil
      | cons other later =>
        have hfirst := hget other.1
        rw [get?_cons, if_pos rfl] at hfirst
        cases hfirst
    | cons entry rest ih =>
      obtain ⟨k, v⟩ := entry
      cases others with
      | nil =>
        have hfirst := hget k
        rw [get?_cons, if_pos rfl] at hfirst
        cases hfirst
      | cons other later =>
        obtain ⟨l, w⟩ := other
        -- The first key of either side is bound on the other one, so neither comes before the other.
        have hkey : k = l := by
          rcases lt_trichotomy k l with hlt | heq | hgt
          · have hfirst := hget k
            rw [get?_cons, if_pos rfl, get?_cons, if_neg (ne_of_gt hlt),
              hothers.get?_eq_none (le_of_lt hlt)] at hfirst
            cases hfirst
          · exact heq
          · have hfirst := hget l
            rw [get?_cons, if_neg (ne_of_gt hgt), h.get?_eq_none (le_of_lt hgt), get?_cons,
              if_pos rfl] at hfirst
            cases hfirst
        obtain rfl := hkey
        -- Under their common key the first entries have the values that are alike.
        have hvalue : r v w := by
          have hfirst := hget k
          rw [get?_cons, if_pos rfl, get?_cons, if_pos rfl] at hfirst
          cases hfirst with
          | some hvalue => exact hvalue
        refine .cons ⟨rfl, hvalue⟩ ?_
        refine ih (List.pairwise_cons.mp h).2 (List.pairwise_cons.mp hothers).2 fun key => ?_
        by_cases hk : k = key
        -- The first key is bound on neither side again.
        · obtain rfl := hk
          rw [h.get?_eq_none (le_refl k), hothers.get?_eq_none (le_refl k)]
          exact .none
        · have hlater := hget key
          rwa [get?_cons, if_neg hk, get?_cons, if_neg hk] at hlater

/-- **Ascending entries with the same bindings are the same entries.** -/
theorem Ascending.ext {others : Fields} (h : Ascending fields) (hothers : Ascending others)
    (hget : ∀ key, fields.get? key = others.get? key) : fields = others := by
  -- Identity of values is one of the relations that can be looked at key by key.
  have halike := (h.forall₂_iff hothers (r := Eq)).mpr fun key => by
    rw [hget key]
    cases others.get? key with
    | none => exact .none
    | some v => exact .some rfl
  exact List.forall₂_eq_eq_eq ▸ halike.imp fun _ _ hentry => Prod.ext hentry.1 hentry.2

/-- Binding a key to the value that it has changes nothing. -/
theorem Ascending.insert_self (h : Ascending fields) {key : String} {v : Document}
    (hget : fields.get? key = some v) : Fields.insert fields key v = fields := by
  apply (h.insert key v).ext h
  intro k
  rw [get?_insert]
  split
  case isTrue hk => rw [hk, hget]
  case isFalse => rfl

/-- Unbinding a key that is not bound changes nothing. -/
theorem Ascending.erase_eq_self (h : Ascending fields) {key : String} (hget : fields.get? key = none) :
    Fields.erase fields key = fields := by
  apply (h.erase key).ext h
  intro k
  rw [get?_erase h]
  split
  case isTrue hk => rw [hk, hget]
  case isFalse => rfl

end Fields
end SoftwareCensus
