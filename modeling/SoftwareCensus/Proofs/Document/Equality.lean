import SoftwareCensus.Proofs.Document.Presented

/-!
# Equality of Documents

Documents are compared as values: doubles as numbers, so the two zeros are equal, and mappings entry
by entry. As their keys are in order, two mappings are equal exactly if they have equal values under
every key. Not being a number is what would keep a document from being equal to itself, and no double
that can be read from JSON is that.

A likeness is a relation that compares mappings in this way, too. Both identity and equality are
likenesses, so what is shown of every likeness need not be shown of each of them.

## Main results

* `Document.same_comm`, `Document.same_self` : equality is symmetric, and reflexive where it can be
* `Document.Likeness.map_iff_get?` : mappings are alike if they are alike under every key
-/

namespace SoftwareCensus

open Numeral

/-- Doubles are compared as numbers in either order. -/
theorem Numeral.Binary64.numEq_comm (x y : Binary64) : x.numEq y = y.numEq x := by
  have hbeq : (x == y) = (y == x) := by rw [Bool.eq_iff_iff, beq_iff_eq, beq_iff_eq, eq_comm]
  unfold numEq
  rw [hbeq, Bool.and_comm (!x.isNaN), Bool.and_comm x.isZero]

theorem Numeral.Binary64.numEq_self {x : Binary64} (h : x.isFinite = true) : x.numEq x = true := by
  -- A finite double has no exponent of all ones, so it is a number.
  have hnumber : x.isNaN = false := by
    unfold isFinite at h
    unfold isNaN
    rw [Bool.and_eq_false_iff]
    exact .inl (by simpa using h)
  simp [numEq, hnumber]

namespace Document

/-! ## Symmetry and reflexivity -/

mutual

/-- **Equality is symmetric.** Documents of different kinds differ in either order. -/
theorem same_comm : ∀ d e : Document, d.same e = e.same d
  | .null, e => by cases e <;> rfl
  | .bool a, e => by
    cases e with
    | bool b => exact Bool.beq_comm
    | _ => rfl
  | .int a, e => by
    cases e with
    | int b => exact BEq.comm
    | _ => rfl
  | .float x, e => by
    cases e with
    | float y => exact x.numEq_comm y
    | _ => rfl
  | .str a, e => by
    cases e with
    | str b => exact BEq.comm
    | _ => rfl
  | .list items, e => by
    cases e with
    | list others => exact sameItems_comm items others
    | _ => rfl
  | .map fields, e => by
    cases e with
    | map others => exact sameFields_comm fields others
    | _ => rfl

/-- Lists are compared item by item, and as long as both have one. -/
theorem sameItems_comm : ∀ items others : List Document, sameItems items others = sameItems others items
  | [], [] | [], _ :: _ | _ :: _, [] => rfl
  | d :: rest, e :: later => by
    rw [sameItems, sameItems, same_comm d e, sameItems_comm rest later]

/-- Mappings are compared entry by entry, keys and values. -/
theorem sameFields_comm : ∀ fields others : Fields, sameFields fields others = sameFields others fields
  | [], [] | [], _ :: _ | _ :: _, [] => rfl
  | (k, d) :: rest, (l, e) :: later => by
    have hkey : (k == l) = (l == k) := BEq.comm
    rw [sameFields, sameFields, hkey, same_comm d e, sameFields_comm rest later]

end

mutual

/-- What can be read from JSON equals itself. -/
theorem same_self : ∀ (d : Document) {room : Nat}, d.IsJson room → d.same d = true
  | .null, _, _ => rfl
  | .bool _, _, _ | .int _, _, _ | .str _, _, _ => beq_self_eq_true _
  | .float _, _, h => Numeral.Binary64.numEq_self h
  | .list items, _, h => sameItems_self items h.2
  | .map fields, _, h => sameFields_self fields h.2

/-- A list of JSON equals itself. -/
theorem sameItems_self : ∀ (items : List Document) {room : Nat}, AreJson room items →
    sameItems items items = true
  | [], _, _ => rfl
  | d :: rest, _, h => by
    rw [sameItems, same_self d h.1, sameItems_self rest h.2]
    rfl

/-- A mapping of JSON equals itself, as its keys are equal anyway. -/
theorem sameFields_self : ∀ (fields : Fields) {room : Nat}, ValuesAreJson room fields →
    sameFields fields fields = true
  | [], _, _ => rfl
  | (k, d) :: rest, _, h => by
    rw [sameFields, same_self d h.1, sameFields_self rest h.2, beq_self_eq_true]
    rfl

end

/-- Two mappings are equal if they have the same keys in a row, with equal values. -/
theorem sameFields_iff {fields others : Fields} : sameFields fields others = true ↔
    List.Forall₂ (fun entry other => entry.1 = other.1 ∧ entry.2.same other.2 = true)
      fields others := by
  induction fields generalizing others with
  | nil => cases others <;> simp [sameFields]
  | cons entry rest ih => cases others <;> simp [sameFields, ih]

/-- Equal lists have the same length. -/
theorem length_eq_of_sameItems {items others : List Document} (h : sameItems items others = true) :
    items.length = others.length := by
  induction items generalizing others with
  | nil =>
    cases others with
    | nil => rfl
    | cons => cases h
  | cons d rest ih =>
    cases others with
    | nil => cases h
    | cons e later =>
      obtain ⟨-, hrest⟩ := Bool.and_eq_true_iff.mp h
      rw [List.length_cons, List.length_cons, ih hrest]

/-- Equal lists have equal items, so neither has one that the other has not. -/
theorem any_of_sameItems {items others : List Document} (h : sameItems items others = true)
    {d : Document} (hd : d ∈ items) : others.any (·.same d) = true := by
  induction items generalizing others with
  | nil => cases hd
  | cons first rest ih =>
    cases others with
    | nil => cases h
    | cons e later =>
      obtain ⟨hfirst, hrest⟩ := Bool.and_eq_true_iff.mp h
      rw [List.any_cons, Bool.or_eq_true]
      -- The item is the first, whose partner is the first of the others, or one of the rest.
      rcases List.mem_cons.mp hd with rfl | hd
      · exact .inl ((same_comm e d).trans hfirst)
      · exact .inr (ih hrest hd)

/-! ## Likenesses -/

/-- A way of comparing documents that goes through mappings entry by entry. -/
structure Likeness (r : Document → Document → Prop) : Prop where
  self : ∀ {d : Document} {room : Nat}, d.IsJson room → r d d
  map_iff : ∀ {fields others : Fields}, r (.map fields) (.map others) ↔
    List.Forall₂ (fun entry other => entry.1 = other.1 ∧ r entry.2 other.2) fields others

/-- Identity is a likeness. -/
theorem likeness_eq : Likeness Eq where
  self _ := rfl
  map_iff := by
    intro fields others
    constructor
    · intro h
      cases h
      exact List.forall₂_same.mpr fun _ _ => ⟨rfl, rfl⟩
    -- Entries that are identical in pairs are those of one mapping.
    · intro h
      exact congrArg map (List.forall₂_eq_eq_eq ▸ h.imp fun _ _ hentry => Prod.ext hentry.1 hentry.2)

/-- Equality is a likeness. -/
theorem likeness_same : Likeness fun d e => d.same e = true where
  self h := same_self _ h
  map_iff := sameFields_iff

/-- **Mappings are alike if they are alike under every key.** -/
theorem Likeness.map_iff_get? {r : Document → Document → Prop} (hlike : Likeness r)
    {fields others : Fields} (h : fields.Ascending) (hothers : others.Ascending) :
    r (.map fields) (.map others) ↔ ∀ key, Option.Rel r (fields.get? key) (others.get? key) :=
  hlike.map_iff.trans (h.forall₂_iff hothers)

end Document

end SoftwareCensus
