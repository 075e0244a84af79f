import SoftwareCensus.Proofs.Document.Merging
import SoftwareCensus.Template.Value

/-!
# Documents of Values

Filters take values of expressions and work on their documents. What they get there is in order and
can be written as JSON, whatever the values are: keys are bound one after another, integers that do
not fit are refused, and doubles that are not finite become null. Such a document is the document of
the value that presents it, so a filter can go on with what another one gave.

## Main results

* `Template.Value.wellFormed_of_toDocument` : what the document of a value is like
* `Template.Value.toDocument_ofDocument` : the document of the value of a document
-/

namespace SoftwareCensus

open Numeral

namespace Document

/-! ## Room for brackets -/

variable {room : Nat}

/-- The depth of a list leaves room for all its items. -/
theorem depthOfItems_le_iff {items : List Document} :
    depthOfItems items ≤ room ↔ ∀ d ∈ items, d.depth ≤ room := by
  induction items with
  | nil => simp [depthOfItems]
  | cons d rest ih => simp [depthOfItems, ih]

/-- The depth of a mapping leaves room for all its values. -/
theorem depthOfFields_le_iff {fields : Fields} :
    depthOfFields fields ≤ room ↔ ∀ entry ∈ fields, entry.2.depth ≤ room := by
  induction fields with
  | nil => simp [depthOfFields]
  | cons entry rest ih => simp [depthOfFields, ih]

mutual

/-- What can be written under some brackets can be written where there is room for more. -/
theorem IsJson.mono : ∀ {d : Document} {room more : Nat}, d.IsJson room → room ≤ more →
    d.IsJson more
  | .null, _, _, _, _ | .bool _, _, _, _, _ | .str _, _, _, _, _ => trivial
  | .int _, _, _, h, _ | .float _, _, _, h, _ => h
  | .list _, _, _, h, hmore =>
    ⟨Nat.lt_of_lt_of_le h.1 hmore, AreJson.mono h.2 (Nat.sub_le_sub_right hmore 1)⟩
  | .map _, _, _, h, hmore =>
    ⟨Nat.lt_of_lt_of_le h.1 hmore, ValuesAreJson.mono h.2 (Nat.sub_le_sub_right hmore 1)⟩

/-- Items that can be written can be written where there is room for more. -/
theorem AreJson.mono : ∀ {items : List Document} {room more : Nat}, AreJson room items →
    room ≤ more → AreJson more items
  | [], _, _, _, _ => trivial
  | _ :: _, _, _, h, hmore => ⟨IsJson.mono h.1 hmore, AreJson.mono h.2 hmore⟩

/-- Values that can be written can be written where there is room for more. -/
theorem ValuesAreJson.mono : ∀ {fields : Fields} {room more : Nat}, ValuesAreJson room fields →
    room ≤ more → ValuesAreJson more fields
  | [], _, _, _, _ => trivial
  | (_, _) :: _, _, _, h, hmore => ⟨IsJson.mono h.1 hmore, ValuesAreJson.mono h.2 hmore⟩

end

/-- A document that is well formed stays so where there is more room. -/
theorem WellFormed.mono {d : Document} {more : Nat} (h : WellFormed room d) (hmore : room ≤ more) :
    WellFormed more d where
  ordered := h.ordered
  isJson := h.isJson.mono hmore

/-- A list needs room for one more pair of brackets than its items. -/
theorem wellFormed_list {items : List Document} (h : ∀ d ∈ items, WellFormed d.depth d) :
    WellFormed (list items).depth (list items) := by
  refine wellFormed_list_iff.mpr ⟨Nat.succ_pos _, ?_⟩
  intro d hd
  exact (h d hd).mono (depthOfItems_le_iff.mp (le_refl _) d hd)

/-- A mapping needs room for one more pair of brackets than its values. -/
theorem wellFormed_map {fields : Fields} (hascending : fields.Ascending)
    (h : ∀ entry ∈ fields, WellFormed entry.2.depth entry.2) :
    WellFormed (map fields).depth (map fields) := by
  refine wellFormed_map_iff.mpr ⟨Nat.succ_pos _, hascending, ?_⟩
  intro entry hentry
  exact (h entry hentry).mono (depthOfFields_le_iff.mp (le_refl _) entry hentry)

end Document

namespace Template.Value

open Document

/-! ## The documents of values -/

mutual

/-- **What the document of a value is like.** -/
theorem wellFormed_of_toDocument : ∀ (v : Value) {d : Document}, v.toDocument = .ok d →
    WellFormed d.depth d
  -- What has no parts is presented as null, a truth value or a text.
  | .undefined, _, h | .none, _, h | .bool _, _, h | .str _ _, _, h | .function _, _, h => by
    cases h
    exact ⟨trivial, trivial⟩
  | .namespaceRef _, _, h | .macroRef _, _, h => by
    cases h
    exact wellFormed_map .nil (List.forall_mem_nil _)
  -- An integer has 64 bits, or the value has no document.
  | .int n, _, h => by
    rw [toDocument] at h
    split at h
    case isTrue hfits =>
      cases h
      exact ⟨trivial, hfits⟩
    case isFalse => cases h
  | .float x, _, h => by
    -- A double that is no number is presented as null.
    obtain rfl := Except.ok.inj h
    split
    case isTrue hfinite => exact ⟨trivial, hfinite⟩
    case isFalse => exact ⟨trivial, trivial⟩
  | .seq items _, _, h => by
    obtain ⟨ds, hds, rfl⟩ := except_map_eq_ok h
    exact wellFormed_list (wellFormed_of_toDocuments items hds)
  | .cluster key items, _, h => by
    -- A key and the items that share it are a list of two.
    obtain ⟨k, hk, h⟩ := except_bind_eq_ok h
    obtain ⟨ds, hds, h⟩ := except_bind_eq_ok h
    cases h
    have hitems := wellFormed_list (wellFormed_of_toDocuments items hds)
    refine wellFormed_list (List.forall_mem_cons.mpr ⟨wellFormed_of_toDocument key hk, ?_⟩)
    exact List.forall_mem_singleton.mpr hitems
  | .map entries, _, h => by
    obtain ⟨fields, hfields, rfl⟩ := except_map_eq_ok h
    exact wellFormed_of_toFields entries .nil (List.forall_mem_nil _) hfields
  | .named entries, _, h | .loop entries, _, h => by
    obtain ⟨fields, hfields, rfl⟩ := except_map_eq_ok h
    exact wellFormed_of_toNamedFields entries .nil (List.forall_mem_nil _) hfields

/-- The documents of several values are well formed. -/
theorem wellFormed_of_toDocuments : ∀ (items : List Value) {ds : List Document},
    toDocuments items = .ok ds → ∀ d ∈ ds, WellFormed d.depth d
  | [], _, h => by
    cases h
    exact List.forall_mem_nil _
  | v :: rest, _, h => by
    obtain ⟨d, hd, h⟩ := except_bind_eq_ok h
    obtain ⟨ds, hds, h⟩ := except_bind_eq_ok h
    cases h
    exact List.forall_mem_cons.mpr
      ⟨wellFormed_of_toDocument v hd, wellFormed_of_toDocuments rest hds⟩

/-- Entries are bound one after another to the texts of their keys. -/
theorem wellFormed_of_toFields : ∀ (entries : List (Value × Value)) {acc fields : Fields},
    acc.Ascending → (∀ entry ∈ acc, WellFormed entry.2.depth entry.2) →
      toFields entries acc = .ok fields → WellFormed (Document.map fields).depth (.map fields)
  | [], _, _, hascending, hacc, h => by
    cases h
    exact wellFormed_map hascending hacc
  | (k, v) :: rest, acc, _, hascending, hacc, h => by
    obtain ⟨key, -, h⟩ := except_bind_eq_ok h
    obtain ⟨d, hd, h⟩ := except_bind_eq_ok h
    -- Two keys can have the same text, so an entry may take the place of an earlier one.
    have hvalues : ∀ entry ∈ acc.insert key d, WellFormed entry.2.depth entry.2 :=
      Fields.forall_insert hacc (wellFormed_of_toDocument v hd)
    exact wellFormed_of_toFields rest (hascending.insert key d) hvalues h

/-- Entries that have names for keys are bound in the same way. -/
theorem wellFormed_of_toNamedFields : ∀ (entries : List (String × Value)) {acc fields : Fields},
    acc.Ascending → (∀ entry ∈ acc, WellFormed entry.2.depth entry.2) →
      toNamedFields entries acc = .ok fields → WellFormed (Document.map fields).depth (.map fields)
  | [], _, _, hascending, hacc, h => by
    cases h
    exact wellFormed_map hascending hacc
  | (key, v) :: rest, acc, _, hascending, hacc, h => by
    obtain ⟨d, hd, h⟩ := except_bind_eq_ok h
    have hvalues : ∀ entry ∈ acc.insert key d, WellFormed entry.2.depth entry.2 :=
      Fields.forall_insert hacc (wellFormed_of_toDocument v hd)
    exact wellFormed_of_toNamedFields rest (hascending.insert key d) hvalues h

end

/-! ## The values of documents -/

mutual

/-- **The document of the value of a document** is that document. -/
theorem toDocument_ofDocument : ∀ (d : Document) {room : Nat}, d.Ordered → d.IsJson room →
    (ofDocument d).toDocument = .ok d
  | .null, _, _, _ | .bool _, _, _, _ | .str _, _, _, _ => rfl
  | .int n, _, _, hd => by
    have hfits : fits64 n = true := hd
    rw [ofDocument, toDocument, if_pos hfits]
  | .float x, _, _, hd => by
    have hfinite : x.isFinite = true := hd
    rw [ofDocument, toDocument, if_pos hfinite]
  | .list items, _, hordered, hd => by
    rw [ofDocument, toDocument, toDocuments_ofDocuments items hordered hd.2]
    rfl
  | .map fields, _, hordered, hd => by
    rw [ofDocument, toDocument, toFields_ofFields fields [] hordered.1 hordered.2 hd.2]
    rfl

/-- The documents of the values of several documents are these. -/
theorem toDocuments_ofDocuments : ∀ (items : List Document) {room : Nat}, AllOrdered items →
    AreJson room items → toDocuments (ofDocuments items) = .ok items
  | [], _, _, _ => rfl
  | d :: rest, _, hordered, hd => by
    rw [ofDocuments, toDocuments, toDocument_ofDocument d hordered.1 hd.1,
      toDocuments_ofDocuments rest hordered.2 hd.2]
    rfl

/-- Entries that come after those found so far are bound behind them. -/
theorem toFields_ofFields : ∀ (fields acc : Fields) {room : Nat},
    Fields.Ascending (acc ++ fields) → ValuesOrdered fields → ValuesAreJson room fields →
      toFields (ofFields fields) acc = .ok (acc ++ fields)
  | [], acc, _, _, _, _ => by rw [ofFields, toFields, List.append_nil]
  | (k, d) :: rest, acc, _, hascending, hordered, hd => by
    -- The key comes behind those found so far, so it is put at the end of them.
    have hlast : ∀ entry ∈ acc, entry.1 < k := fun entry hentry =>
      (List.pairwise_append.mp hascending).2.2 entry hentry (k, d) (List.mem_cons_self ..)
    have hnext : acc ++ (k, d) :: rest = (acc ++ [(k, d)]) ++ rest := by simp
    have hkey : keyText (str k false) = .ok k := rfl
    rw [ofFields, toFields, hkey, toDocument_ofDocument d hordered.1 hd.1]
    show toFields (ofFields rest) (Fields.insert acc k d) = _
    rw [Fields.insert_of_forall_lt hlast, hnext]
    rw [hnext] at hascending
    exact toFields_ofFields rest (acc ++ [(k, d)]) hascending hordered.2 hd.2

end

end Template.Value

end SoftwareCensus
