import SoftwareCensus.Proofs.Document.Ordered

/-!
# Documents as Sources

A document presents a source again, and reading that gives the document back. It needs its mappings
to be in order, as the entries are bound one after another, and its doubles to be finite, as others
are read as null. Both hold of what was read from a JSON text.

## Main results

* `Source.isJson_of_toDocument?` : what is read from JSON is JSON
* `Source.toDocument?_ofDocument` : a document is read back from the source that it presents
* `Source.Record.ofEntries?_ofFields` : the entries of a mapping sorted into a record
-/

namespace SoftwareCensus

open Numeral

namespace Document

mutual

/-- Whether a document can be written as JSON and read again under so many further brackets: its
integers are those of 64 bits and its doubles are finite. -/
def IsJson : Nat → Document → Prop
  | _, .int n => fits64 n = true
  | _, .float x => x.isFinite = true
  | room, .list items => 0 < room ∧ AreJson (room - 1) items
  | room, .map fields => 0 < room ∧ ValuesAreJson (room - 1) fields
  | _, _ => True

/-- Whether the items of a list can. -/
def AreJson : Nat → List Document → Prop
  | _, [] => True
  | room, d :: rest => IsJson room d ∧ AreJson room rest

/-- Whether the values of a mapping can. -/
def ValuesAreJson : Nat → List (String × Document) → Prop
  | _, [] => True
  | room, (_, d) :: rest => IsJson room d ∧ ValuesAreJson room rest

end

variable {room : Nat}

/-- The items of a list can be written if each of them can. -/
theorem areJson_iff {items : List Document} : AreJson room items ↔ ∀ d ∈ items, IsJson room d := by
  induction items with
  | nil => simp [AreJson]
  | cons d rest ih => simp [AreJson, ih]

/-- The values of a mapping can be written if each of them can. -/
theorem valuesAreJson_iff {fields : Fields} :
    ValuesAreJson room fields ↔ ∀ entry ∈ fields, IsJson room entry.2 := by
  induction fields with
  | nil => simp [ValuesAreJson]
  | cons entry rest ih => simp [ValuesAreJson, ih]

/-- Binding a key to a value that can be written keeps to such values. -/
theorem valuesAreJson_insert {fields : Fields} {d : Document} (h : ValuesAreJson room fields)
    (hd : d.IsJson room) (key : String) : ValuesAreJson room (fields.insert key d) :=
  valuesAreJson_iff.mpr (Fields.forall_insert (valuesAreJson_iff.mp h) hd)

/-- Adding values that can be written keeps to such values. -/
theorem valuesAreJson_extend {fields updates : Fields} (h : ValuesAreJson room fields)
    (hupdates : ValuesAreJson room updates) : ValuesAreJson room (fields.extend updates) := by
  induction updates generalizing fields with
  | nil => exact h
  | cons entry rest ih => exact ih (valuesAreJson_insert h hupdates.1 entry.1) hupdates.2

end Document

namespace Source

mutual

/-- Whether a source can stand in a JSON text under so many further brackets. -/
def IsJson : Nat → Source → Prop
  | _, .int n => fits64 n = true
  | _, .float x => x.isFinite = true
  | room, .list items => 0 < room ∧ AreJson (room - 1) items
  | room, .map entries => 0 < room ∧ ValuesAreJson (room - 1) entries
  | _, .plain _ => False
  | _, .foreign => False
  | _, _ => True

/-- Whether the items of a list can. -/
def AreJson : Nat → List Source → Prop
  | _, [] => True
  | room, s :: rest => IsJson room s ∧ AreJson room rest

/-- Whether the values of a mapping can. -/
def ValuesAreJson : Nat → List (Source × Source) → Prop
  | _, [] => True
  | room, (_, s) :: rest => IsJson room s ∧ ValuesAreJson room rest

end

variable {room : Nat}

/-- The items of a list can stand in a JSON text if each of them can. -/
theorem areJson_iff {items : List Source} : AreJson room items ↔ ∀ s ∈ items, IsJson room s := by
  induction items with
  | nil => simp [AreJson]
  | cons s rest ih => simp [AreJson, ih]

/-- The values of a mapping can stand in a JSON text if each of them can. -/
theorem valuesAreJson_iff {entries : List (Source × Source)} :
    ValuesAreJson room entries ↔ ∀ entry ∈ entries, IsJson room entry.2 := by
  induction entries with
  | nil => simp [ValuesAreJson]
  | cons entry rest ih => simp [ValuesAreJson, ih]

/-- The order of the items does not matter. -/
theorem areJson_reverse {items : List Source} : AreJson room items.reverse ↔ AreJson room items := by
  simp only [areJson_iff, List.mem_reverse]

/-- The order of the entries does not matter. -/
theorem valuesAreJson_reverse {entries : List (Source × Source)} :
    ValuesAreJson room entries.reverse ↔ ValuesAreJson room entries := by
  simp only [valuesAreJson_iff, List.mem_reverse]

/-! ## Reading -/

mutual

/-- **What is read from JSON is JSON.** -/
theorem isJson_of_toDocument? : ∀ (s : Source) {room : Nat} {d : Document},
    s.IsJson room → s.toDocument? = some d → d.IsJson room
  | .null, _, _, _, h | .bool _, _, _, _, h | .str _, _, _, _, h => by
    cases h
    trivial
  | .int n, _, _, hs, h => by
    cases h
    exact hs
  -- A double in a JSON text is finite, so it is not read as null.
  | .float x, _, _, hs, h => by
    have hx : x.isFinite = true := hs
    obtain rfl := Option.some.inj h
    rw [if_pos hx]
    exact hx
  -- Neither stands in a JSON text.
  | .plain _, _, _, hs, _ | .foreign, _, _, hs, _ => hs.elim
  | .list items, _, _, hs, h => by
    rw [toDocument?] at h
    obtain ⟨ds, hds, rfl⟩ := Option.map_eq_some_iff.mp h
    exact ⟨hs.1, areJson_of_toDocuments? items hs.2 hds⟩
  | .map entries, _, _, hs, h => by
    rw [toDocument?] at h
    obtain ⟨fields, hfields, rfl⟩ := Option.map_eq_some_iff.mp h
    exact ⟨hs.1, valuesAreJson_of_toFields? entries hs.2 (by trivial) hfields⟩

/-- The items that are read from a list of JSON are JSON. -/
theorem areJson_of_toDocuments? : ∀ (items : List Source) {room : Nat} {ds : List Document},
    AreJson room items → toDocuments? items = some ds → Document.AreJson room ds
  | [], _, _, _, h => by
    cases h
    trivial
  | s :: rest, _, _, hs, h => by
    rw [toDocuments?] at h
    split at h
    case h_1 d ds hd hds =>
      cases h
      exact ⟨isJson_of_toDocument? s hs.1 hd, areJson_of_toDocuments? rest hs.2 hds⟩
    case h_2 => cases h

/-- The entries that are read from a mapping of JSON have values that are JSON. -/
theorem valuesAreJson_of_toFields? : ∀ (entries : List (Source × Source)) {room : Nat}
    {acc fields : Fields}, ValuesAreJson room entries → Document.ValuesAreJson room acc →
      toFields? entries acc = some fields → Document.ValuesAreJson room fields
  | [], _, _, _, _, hacc, h => by
    cases h
    exact hacc
  | (k, v) :: rest, room, acc, _, hentries, hacc, h => by
    rw [toFields?] at h
    split at h
    case h_1 key d _ hd =>
      have hvalue := isJson_of_toDocument? v hentries.1 hd
      have hinserted := Document.valuesAreJson_insert hacc hvalue key
      exact valuesAreJson_of_toFields? rest hentries.2 hinserted h
    case h_2 => cases h

end

/-- A key that is read is the key of an entry. -/
theorem forall_key_of_toFields? {P : String → Prop} {entries : List (Source × Source)}
    {acc fields : Fields} (hacc : ∀ entry ∈ acc, P entry.1)
    (hentries : ∀ entry ∈ entries, ∀ key, entry.1.asKey? = some key → P key)
    (h : toFields? entries acc = some fields) : ∀ entry ∈ fields, P entry.1 := by
  induction entries generalizing acc with
  | nil =>
    cases h
    exact hacc
  | cons first rest ih =>
    obtain ⟨k, v⟩ := first
    obtain ⟨hfirst, hrest⟩ := List.forall_mem_cons.mp hentries
    rw [toFields?] at h
    split at h
    -- The entry is bound by the key that is read, and the others follow.
    case h_1 key d hkey _ =>
      exact ih (Fields.forall_insert hacc (hfirst key hkey)) hrest h
    case h_2 => cases h

/-- Only nothing is read as null. -/
theorem isAbsent_of_toDocument? {s : Source} (hs : s.IsJson room) (h : s.toDocument? = some .null) :
    s.isAbsent = true := by
  cases s with
  | null => rfl
  -- Only a double that is not finite is read as null, and JSON has none.
  | float x =>
    have hx : x.isFinite = true := hs
    have hnull : (if x.isFinite then Document.float x else .null) = .null := Option.some.inj h
    rw [if_pos hx] at hnull
    cases hnull
  | bool | int | str | foreign => cases h
  | plain => exact hs.elim
  | list items =>
    rw [toDocument?] at h
    obtain ⟨ds, -, hds⟩ := Option.map_eq_some_iff.mp h
    cases hds
  | map entries =>
    rw [toDocument?] at h
    obtain ⟨fields, -, hfields⟩ := Option.map_eq_some_iff.mp h
    cases hfields

/-! ## Reading what a document presents -/

mutual

/-- **A document is read back from the source that it presents.** -/
theorem toDocument?_ofDocument : ∀ (d : Document) {room : Nat}, d.Ordered → d.IsJson room →
    (ofDocument d).toDocument? = some d
  | .null, _, _, _ | .bool _, _, _, _ | .int _, _, _, _ | .str _, _, _, _ => rfl
  | .float x, _, _, hd => by
    have hx : x.isFinite = true := hd
    show some (if x.isFinite then Document.float x else .null) = _
    rw [if_pos hx]
  | .list items, _, hordered, hd => by
    rw [ofDocument, toDocument?, toDocuments?_ofDocuments items hordered hd.2]
    rfl
  | .map fields, _, hordered, hd => by
    rw [ofDocument, toDocument?, toFields?_ofFields fields [] hordered.1 hordered.2 hd.2]
    rfl

/-- The items of a list are read back one by one. -/
theorem toDocuments?_ofDocuments : ∀ (items : List Document) {room : Nat},
    Document.AllOrdered items → Document.AreJson room items →
      toDocuments? (ofDocuments items) = some items
  | [], _, _, _ => rfl
  | d :: rest, _, hordered, hd => by
    rw [ofDocuments, toDocuments?, toDocument?_ofDocument d hordered.1 hd.1,
      toDocuments?_ofDocuments rest hordered.2 hd.2]

/-- Entries that come after those read so far are bound behind them. -/
theorem toFields?_ofFields : ∀ (fields acc : Fields) {room : Nat},
    Fields.Ascending (acc ++ fields) → Document.ValuesOrdered fields →
      Document.ValuesAreJson room fields → toFields? (ofFields fields) acc = some (acc ++ fields)
  | [], acc, _, _, _, _ => by rw [ofFields, toFields?, List.append_nil]
  | (k, d) :: rest, acc, _, hascending, hordered, hd => by
    -- The key is greater than those read so far.
    have hlast : ∀ entry ∈ acc, entry.1 < k := fun entry hentry =>
      (List.pairwise_append.mp hascending).2.2 entry hentry (k, d) (List.mem_cons_self ..)
    have hnext : acc ++ (k, d) :: rest = (acc ++ [(k, d)]) ++ rest := by simp
    have hkey : asKey? (.str k) = some k := rfl
    rw [ofFields, toFields?, hkey, toDocument?_ofDocument d hordered.1 hd.1]
    show toFields? (ofFields rest) (Fields.insert acc k d) = _
    rw [Fields.insert_of_forall_lt hlast, hnext]
    rw [hnext] at hascending
    exact toFields?_ofFields rest (acc ++ [(k, d)]) hascending hordered.2 hd.2

end

/-- A list is read back when its items are. -/
theorem listOf?_ofDocument {α : Type} {read : Source → Option α} {write : α → Document} {xs : List α}
    (h : ∀ x ∈ xs, read (ofDocument (write x)) = some x) :
    (ofDocument (.list (xs.map write))).listOf? read = some xs := by
  show (ofDocuments (xs.map write)).mapM read = some xs
  induction xs with
  | nil => rfl
  | cons x rest ih =>
    obtain ⟨hx, hrest⟩ := List.forall_mem_cons.mp h
    rw [List.map_cons, ofDocuments, List.mapM_cons, hx, ih hrest]
    rfl

/-! ## Records -/

namespace Record

variable {names : List String}

/-- Where the parts of a record come from. -/
structure From (names : List String) (entries : List (Source × Source)) (r : Record) : Prop where
  known : ∀ field ∈ r.known, ∃ k, (k, field.2) ∈ entries
  others : ∀ entry ∈ r.others, entry ∈ entries ∧ ∀ key, entry.1.asKey? = some key → key ∉ names

/-- Adding an entry keeps to the entries, and to the names. -/
theorem From.add {entries : List (Source × Source)} {r r' : Record} {entry : Source × Source}
    (h : From names entries r) (hentry : entry ∈ entries) (hadd : r.add? names entry = some r') :
    From names entries r' := by
  unfold add? at hadd
  split at hadd
  case h_1 key hkey =>
    split at hadd
    -- An entry that no name belongs to is put with the others.
    case isTrue hunknown =>
      have hname : key ∉ names := by simpa using hunknown
      obtain rfl := Option.some.inj hadd
      refine ⟨h.known, ?_⟩
      intro other hother
      rcases List.mem_append.mp hother with hold | hnew
      · exact h.others other hold
      · obtain rfl := List.mem_singleton.mp hnew
        refine ⟨hentry, ?_⟩
        intro k hk
        rwa [← Option.some.inj (hkey.symm.trans hk)]
    -- An entry with a known name becomes a field, unless that field was given before.
    case isFalse =>
      split at hadd
      case isTrue => cases hadd
      case isFalse =>
        obtain rfl := Option.some.inj hadd
        refine ⟨?_, h.others⟩
        intro field hfield
        rcases List.mem_append.mp hfield with hold | hnew
        · exact h.known field hold
        · obtain rfl := List.mem_singleton.mp hnew
          exact ⟨entry.1, hentry⟩
  -- A key that is no text is refused.
  case h_2 => cases hadd

/-- **The parts of a record come from the entries**, and the names keep the others apart. -/
theorem from_of_ofEntries? {entries : List (Source × Source)} {r : Record}
    (h : ofEntries? names entries = some r) : From names entries r := by
  -- The entries are added from left to right, so the statement is over what was added before.
  have hrun : ∀ (later : List (Source × Source)) (sofar : Record), (∀ entry ∈ later, entry ∈ entries) →
      From names entries sofar → later.foldlM (add? names) sofar = some r → From names entries r := by
    intro later
    induction later with
    | nil =>
      intro sofar _ hfrom hsofar
      cases hsofar
      exact hfrom
    | cons entry rest ih =>
      intro sofar hmem hfrom hadded
      obtain ⟨hentry, hrest⟩ := List.forall_mem_cons.mp hmem
      rw [List.foldlM_cons] at hadded
      obtain ⟨next, hnext, hadded⟩ := Option.bind_eq_some_iff.mp hadded
      exact ih next hrest (hfrom.add hentry hnext) hadded
  refine hrun entries ⟨[], []⟩ (fun _ => id) ⟨?_, ?_⟩ h
  · intro field hfield
    cases hfield
  · intro entry hentry
    cases hentry

/-- The value of a field is that of an entry. -/
theorem From.get {entries : List (Source × Source)} {r : Record} (h : From names entries r)
    {name : String} {s : Source} (hget : r.get? name = some s) : ∃ k, (k, s) ∈ entries := by
  obtain ⟨field, hfind, rfl⟩ := Option.map_eq_some_iff.mp hget
  exact h.known field (List.mem_of_find?_eq_some hfind)

/-- The fields that the entries of a mapping present. -/
def presented (fields : Fields) : List (String × Source) :=
  fields.map fun entry => (entry.1, ofDocument entry.2)

/-- A field that is presented has the value of its entry. -/
theorem get?_presented (fields : Fields) (others : List (Source × Source)) (name : String) :
    (Record.mk (presented fields) others).get? name = (fields.get? name).map ofDocument := by
  induction fields with
  | nil => rfl
  | cons entry rest ih =>
    obtain ⟨bound, d⟩ := entry
    rw [Fields.get?_cons]
    by_cases hbound : bound = name
    · rw [if_pos hbound]
      simp [get?, presented, hbound]
    · rw [if_neg hbound, ← ih]
      simp [get?, presented, hbound]

/-- The entries that come after those sorted so far are sorted behind them. -/
theorem foldlM_add?_ofFields {fields done : Fields} (h : (done ++ fields).keys.Nodup)
    (others : List (Source × Source)) :
    (ofFields fields).foldlM (add? names) ⟨presented done, others⟩ =
      some ⟨presented (done ++ fields.filter fun entry => names.contains entry.1),
        others ++ ofFields (fields.filter fun entry => !names.contains entry.1)⟩ := by
  induction fields generalizing done others with
  | nil => simp [ofFields]
  | cons entry rest ih =>
    obtain ⟨k, d⟩ := entry
    rw [ofFields, List.foldlM_cons]
    cases hk : names.contains k with
    | true =>
      -- The key comes once, so no field is known by that name yet.
      have hnew : (presented done).any (·.1 == k) = false := by
        rw [Fields.keys, List.map_append] at h
        have hlater := (List.nodup_append.mp h).2.2
        simp only [presented, List.any_map, List.any_eq_false, Function.comp_apply, beq_iff_eq]
        intro entry hentry
        exact hlater entry.1 (List.mem_map_of_mem hentry) k (List.mem_cons_self ..)
      have hadd : add? names ⟨presented done, others⟩ (.str k, ofDocument d) =
          some ⟨presented (done ++ [(k, d)]), others⟩ := by
        simp only [add?, asKey?, hk, hnew, Bool.not_true, Bool.false_eq_true, if_false]
        simp only [presented, List.map_append, List.map_cons, List.map_nil]
      have hnodup : (done ++ [(k, d)] ++ rest).keys.Nodup := by simpa using h
      rw [hadd]
      show (ofFields rest).foldlM (add? names) _ = _
      rw [ih hnodup others, List.filter_cons_of_pos (by simpa using hk),
        List.filter_cons_of_neg (by simpa using hk), List.append_assoc]
      rfl
    -- A key that is no known name goes to the others, and may not be asked about again.
    | false =>
      have hadd : add? names ⟨presented done, others⟩ (.str k, ofDocument d) =
          some ⟨presented done, others ++ [(.str k, ofDocument d)]⟩ := by
        simp only [add?, asKey?, hk, Bool.not_false, if_true]
      have hnodup : (done ++ rest).keys.Nodup :=
        h.sublist (((List.sublist_cons_self ..).append_left done).map Prod.fst)
      rw [hadd]
      show (ofFields rest).foldlM (add? names) _ = _
      rw [ih hnodup, List.filter_cons_of_neg (by simpa using hk),
        List.filter_cons_of_pos (by simpa using hk), List.append_assoc]
      rfl

/-- **The entries of a mapping sorted into a record.** No field is given twice, since no key comes
twice in ascending order. -/
theorem ofEntries?_ofFields {fields : Fields} (h : fields.Ascending) :
    ofEntries? names (ofFields fields) =
      some ⟨presented (fields.filter fun entry => names.contains entry.1),
        ofFields (fields.filter fun entry => !names.contains entry.1)⟩ := by
  have hnodup : Fields.keys ([] ++ fields) |>.Nodup := h.keys_nodup
  exact foldlM_add?_ofFields hnodup []

end Record

end Source

end SoftwareCensus
