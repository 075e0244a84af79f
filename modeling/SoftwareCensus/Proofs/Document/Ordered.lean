import SoftwareCensus.Document.Decode
import SoftwareCensus.Proofs.Document.Entries
import SoftwareCensus.Tasks.Check

/-!
# Ordered Documents

A document whose mappings, at every depth, have their keys in ascending order. Every document that is
read from a text is one. Rendering goes through the entries of a mapping and binds them again, so it is
among these that a document without templates is rendered to itself.

## Main results

* `Source.ordered_of_toDocument?` : what is read is in order
* `Template.render_of_not_hasTemplate` : a document without templates stays as it is
-/

namespace SoftwareCensus

namespace Document

mutual

/-- Whether all mappings in a document have their keys in ascending order. -/
def Ordered : Document → Prop
  | .list items => AllOrdered items
  | .map fields => Fields.Ascending fields ∧ ValuesOrdered fields
  | _ => True

/-- Whether the items of a list are ordered. -/
def AllOrdered : List Document → Prop
  | [] => True
  | d :: rest => Ordered d ∧ AllOrdered rest

/-- Whether the values of a mapping are ordered. -/
def ValuesOrdered : List (String × Document) → Prop
  | [] => True
  | (_, d) :: rest => Ordered d ∧ ValuesOrdered rest

end

/-- The items of a list are in order if each of them is. -/
theorem allOrdered_iff {items : List Document} : AllOrdered items ↔ ∀ d ∈ items, Ordered d := by
  induction items with
  | nil => simp [AllOrdered]
  | cons d rest ih => simp [AllOrdered, ih]

/-- The values of a mapping are in order if each of them is. -/
theorem valuesOrdered_iff {fields : Fields} :
    ValuesOrdered fields ↔ ∀ entry ∈ fields, Ordered entry.2 := by
  induction fields with
  | nil => simp [ValuesOrdered]
  | cons entry rest ih => simp [ValuesOrdered, ih]

/-- What is bound in an ordered document is in order. -/
theorem Ordered.of_get? {fields : Fields} (h : (map fields).Ordered) {key : String} {d : Document}
    (hd : fields.get? key = some d) : d.Ordered :=
  valuesOrdered_iff.mp h.2 _ (Fields.mem_of_get? hd)

/-- Binding a key to a value in order keeps to such values. -/
theorem ValuesOrdered.insert {fields : Fields} (h : ValuesOrdered fields) (key : String)
    {d : Document} (hd : d.Ordered) : ValuesOrdered (fields.insert key d) :=
  valuesOrdered_iff.mpr (Fields.forall_insert (valuesOrdered_iff.mp h) hd)

end Document

/-! ## Reading -/

namespace Source

mutual

/-- **What is read is in order.** -/
theorem ordered_of_toDocument? : ∀ (s : Source) {d : Document}, s.toDocument? = some d → d.Ordered
  | .null, _, h | .bool _, _, h | .int _, _, h | .str _, _, h => by
    cases h
    trivial
  | .float x, _, h => by
    -- A double that is no number is read as null.
    obtain rfl := Option.some.inj h
    split <;> trivial
  | .foreign, _, h => by cases h
  -- A plain scalar is settled to one of the kinds above, a number among them.
  | .plain s, _, h => by
    rw [toDocument?] at h
    generalize settle s = settled at h
    cases settled with
    | float x =>
      obtain rfl := Option.some.inj h
      split <;> trivial
    | _ =>
      cases h
      try trivial
  | .list items, _, h => by
    rw [toDocument?] at h
    obtain ⟨ds, hds, rfl⟩ := Option.map_eq_some_iff.mp h
    exact allOrdered_of_toDocuments? items hds
  | .map entries, _, h => by
    rw [toDocument?] at h
    obtain ⟨fields, hfields, rfl⟩ := Option.map_eq_some_iff.mp h
    exact ordered_of_toFields? entries List.Pairwise.nil trivial hfields

/-- The items that are read from a list are in order. -/
theorem allOrdered_of_toDocuments? : ∀ (items : List Source) {ds : List Document},
    toDocuments? items = some ds → Document.AllOrdered ds
  | [], _, h => by
    cases h
    trivial
  | s :: rest, _, h => by
    rw [toDocuments?] at h
    split at h
    next d ds hd hds =>
      cases h
      exact ⟨ordered_of_toDocument? s hd, allOrdered_of_toDocuments? rest hds⟩
    next => cases h

/-- Entries are bound one after another, so their keys are in order. -/
theorem ordered_of_toFields? : ∀ (entries : List (Source × Source)) {acc fields : Fields},
    Fields.Ascending acc → Document.ValuesOrdered acc → toFields? entries acc = some fields →
      (Document.map fields).Ordered
  | [], _, _, hascending, hvalues, h => by
    cases h
    exact ⟨hascending, hvalues⟩
  | (k, v) :: rest, _, _, hascending, hvalues, h => by
    rw [toFields?] at h
    split at h
    next key d _ hd =>
      have hinserted := hvalues.insert key (ordered_of_toDocument? v hd)
      exact ordered_of_toFields? rest (hascending.insert key d) hinserted h
    next => cases h

end

/-- What is in a list was read from one of its items. -/
theorem exists_item_of_mem_listOf? {α : Type} {read : Source → Option α} {s : Source} {xs : List α}
    (h : s.listOf? read = some xs) {x : α} (hx : x ∈ xs) :
    ∃ items, s.items? = some items ∧ ∃ item ∈ items, read item = some x := by
  obtain ⟨items, hsource, hitems⟩ := Option.bind_eq_some_iff.mp h
  refine ⟨items, hsource, ?_⟩
  -- The items are gone through one by one, so the list that they come from is no longer needed.
  clear h hsource
  induction items generalizing xs with
  | nil =>
    cases hitems
    cases hx
  | cons item rest ih =>
    simp only [List.mapM_cons, bind, pure, Option.bind_eq_some_iff] at hitems
    obtain ⟨first, hfirst, others, hothers, hxs⟩ := hitems
    obtain rfl := Option.some.inj hxs
    rcases List.mem_cons.mp hx with rfl | hx
    · exact ⟨item, List.mem_cons_self .., hfirst⟩
    · obtain ⟨later, hlater, hread⟩ := ih hx hothers
      exact ⟨later, List.mem_cons_of_mem _ hlater, hread⟩

/-- What is in a list was read from something. -/
theorem exists_of_mem_listOf? {α : Type} {read : Source → Option α} {s : Source} {xs : List α}
    (h : s.listOf? read = some xs) {x : α} (hx : x ∈ xs) : ∃ item : Source, read item = some x := by
  obtain ⟨_, _, item, _, hitem⟩ := exists_item_of_mem_listOf? h hx
  exact ⟨item, hitem⟩

end Source

/-! ## Rendering -/

namespace Template

variable (lookup : Lookup)

mutual

/-- **A document without templates stays as it is.** -/
theorem render_of_not_hasTemplate : ∀ d : Document, d.Ordered → d.hasTemplate = false →
    render lookup d = .ok d
  | .null, _, _ | .bool _, _, _ | .int _, _, _ | .float _, _, _ => rfl
  | .str s, _, h => renderText_of_not_isTemplate lookup h
  | .list items, hordered, h => by
    rw [render, renderItems_of_not_haveTemplate items hordered h]
    rfl
  | .map fields, hordered, h => by
    have hfields := renderFields_of_not_haveTemplate fields [] hordered.1 hordered.2 h
    rw [render, hfields]
    rfl

/-- A list without templates stays as it is. -/
theorem renderItems_of_not_haveTemplate : ∀ items : List Document, Document.AllOrdered items →
    Document.haveTemplate items = false → renderItems lookup items = .ok items
  | [], _, _ => rfl
  | d :: rest, hordered, h => by
    obtain ⟨hd, hrest⟩ := Bool.or_eq_false_iff.mp h
    rw [renderItems, render_of_not_hasTemplate d hordered.1 hd,
      renderItems_of_not_haveTemplate rest hordered.2 hrest]
    rfl

/-- Entries that come after those rendered so far are bound behind them. -/
theorem renderFields_of_not_haveTemplate : ∀ (fields acc : Fields),
    Fields.Ascending (acc ++ fields) → Document.ValuesOrdered fields →
    Document.fieldsHaveTemplate fields = false → renderFields lookup acc fields = .ok (acc ++ fields)
  | [], acc, _, _, _ => by rw [renderFields, List.append_nil]
  | (k, d) :: rest, acc, hascending, hordered, h => by
    obtain ⟨hfirst, hrest⟩ := Bool.or_eq_false_iff.mp h
    obtain ⟨hk, hd⟩ := Bool.or_eq_false_iff.mp hfirst
    -- The key stays as it is, so it comes behind those rendered so far.
    have hlast : ∀ entry ∈ acc, entry.1 < k := fun entry hentry =>
      (List.pairwise_append.mp hascending).2.2 entry hentry (k, d) (List.mem_cons_self ..)
    have hnext : acc ++ (k, d) :: rest = (acc ++ [(k, d)]) ++ rest := by simp
    rw [renderFields, renderText_of_not_isTemplate lookup hk,
      render_of_not_hasTemplate d hordered.1 hd]
    show renderFields lookup (acc.insert k d) rest = _
    rw [Fields.insert_of_forall_lt hlast, hnext]
    rw [hnext] at hascending
    exact renderFields_of_not_haveTemplate rest (acc ++ [(k, d)]) hascending hordered.2 hrest

end

end Template

end SoftwareCensus
