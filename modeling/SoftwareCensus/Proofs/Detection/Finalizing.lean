import SoftwareCensus.Proofs.Detection.Sorting
import SoftwareCensus.Proofs.Document.Places

/-!
# What Finalizing Leaves

Finalizing has a few places of its own in an instance. It sorts the lists of versions and packages, it
drops what the signature does not report, and it notes the time of the discovery if nobody else did.
All of this is told field by field: what becomes of the value of a field depends on the field and on
this value alone. Whatever other shape the tasks have given to these fields stays as it is.

## Main results

* `get?_finalizeFields` : what becomes of each field
* `finalizeFields_finalizeFields` : finalizing again changes nothing
* `at?_finalizeFields` : what stands beside the places of its own is as before
* `finalize_settles` : an instance is retracted, or kept in its final form
-/

namespace SoftwareCensus

/-! ## Changes of fields -/

namespace Fields

variable {fields : Fields}

/-- A change goes through all entries. -/
theorem modify_cons (k : String) (v : Document) (rest : Fields) (key : String)
    (change : Document → Document) :
    modify ((k, v) :: rest) key change =
      (k, if k = key then change v else v) :: modify rest key change := by
  simp only [modify, List.map_cons, beq_iff_eq]
  split <;> rfl

/-- A change of a value is seen under its key, and nowhere else. -/
theorem get?_modify (fields : Fields) (key : String) (change : Document → Document) (k : String) :
    (fields.modify key change).get? k =
      if k = key then (fields.get? k).map change else fields.get? k := by
  induction fields with
  | nil => exact (ite_self none).symm
  | cons entry rest ih =>
    obtain ⟨bound, v⟩ := entry
    rw [modify_cons, get?_cons, get?_cons, ih]
    -- The first entry has the key in question, or the search goes on behind it.
    by_cases hk : bound = k
    · subst hk
      by_cases hbound : bound = key <;> simp [hbound]
    · simp [hk]

/-- A change of a value keeps the keys, and so their order. -/
theorem Ascending.modify (h : Ascending fields) (key : String) (change : Document → Document) :
    Ascending (fields.modify key change) := by
  apply List.pairwise_map.mpr
  apply h.imp
  intro entry later hlt
  simp only [beq_iff_eq]
  -- The keys are the same whether or not a value is changed.
  split <;> split <;> exact hlt

/-- A key that is bound keeps its value where others are bound only if they are missing. -/
theorem get?_insert_missing (fields : Fields) (key : String) (value : Document) (k : String) :
    get? (if fields.contains key then fields else fields.insert key value) k =
      if k = key then (fields.get? k).or (some value) else fields.get? k := by
  -- The key is missing and is bound, or it is there and nothing happens.
  cases hkey : fields.get? key with
  | none =>
    simp only [contains, hkey, Option.isSome_none, Bool.false_eq_true, if_false, get?_insert]
    by_cases hk : k = key
    · simp [hk, hkey]
    · simp [hk]
  | some v =>
    simp only [contains, hkey, Option.isSome_some, if_true]
    by_cases hk : k = key
    · simp [hk, hkey]
    · simp [hk]

end Fields

/-! ## Changes of values -/

section Values

variable {d : Document} {minor major name : String}

/-- A list that is sorted is sorted to itself. -/
theorem sortList_sortList (minor major : String) (d : Document) :
    sortList minor major (sortList minor major d) = sortList minor major d := by
  cases d with
  | list items => exact congrArg Document.list (sortTwoPass_sortTwoPass minor major items)
  | _ => rfl

/-- Sorting moves items and changes none. -/
theorem Document.Ordered.sortList (h : d.Ordered) (minor major : String) :
    (sortList minor major d).Ordered := by
  cases d with
  | list items =>
    apply allOrdered_iff.mpr
    intro item hitem
    have hperm := (sortTwoPass_stable minor major items).perm
    exact allOrdered_iff.mp h item (hperm.mem_iff.mp hitem)
  | _ => exact h

/-- A mapping without one of its fields is in order. -/
theorem Document.Ordered.dropField (h : d.Ordered) (name : String) : (dropField name d).Ordered := by
  cases d with
  | map fields =>
    refine ⟨h.1.erase name, valuesOrdered_iff.mpr fun entry hentry => ?_⟩
    exact valuesOrdered_iff.mp h.2 entry ((Fields.erase_sublist fields name).subset hentry)
  | _ => exact h

/-- Dropping a field takes away that one step. -/
theorem child?_dropField (h : d.Ordered) (name : String) (step : Step) :
    (dropField name d).child? step = if step = .key name then none else d.child? step := by
  cases d with
  | map fields =>
    cases step with
    | key k => simp only [dropField, Document.child?_map_key, Fields.get?_erase h.1, Step.key.injEq]
    | index i => simp [dropField, Document.child?]
  | _ => cases step <;> simp [dropField, Document.child?]

/-- What does not have a field stays as it is without it. -/
theorem dropField_eq_self (h : d.Ordered) (hname : d.child? (.key name) = none) :
    dropField name d = d := by
  cases d with
  | map fields => exact congrArg Document.map (h.1.erase_eq_self hname)
  | _ => rfl

/-- A field that is dropped is not there to be dropped again. -/
theorem dropField_dropField (h : d.Ordered) (name : String) :
    dropField name (dropField name d) = dropField name d := by
  apply dropField_eq_self (h.dropField name)
  simp [child?_dropField h]

/-- Beside a field that is dropped everything is as before. -/
theorem at?_dropField (h : d.Ordered) {path : Path}
    (hbeside : (d.child? (.key name)).isSome = true → Path.Beside [.key name] path) :
    (dropField name d).at? path = d.at? path := by
  cases hname : d.child? (.key name) with
  | none => rw [dropField_eq_self h hname]
  | some inner =>
    have hbeside := hbeside (by simp [hname])
    cases path with
    | nil => exact absurd rfl hbeside.ne_nil
    | cons step rest =>
      -- The path does not begin with the field, so it begins with a step that is still there.
      have hstep : step ≠ .key name := by
        rintro rfl
        exact hbeside.1 (by simp)
      simp [child?_dropField h, hstep]

end Values

/-! ## Field by field -/

/-- What finalizing makes of the value of a field. -/
def finalizedValue (s : Signature) (time : Option String) (key : String) (d : Option Document) :
    Option Document :=
  if key = "version" then d.map (sortList "type" "number")
  else if key = "packages" then
    if s.returnPackages then d.map (sortList "name" "version") else none
  else if key = "process" then if s.returnChildren then d else d.map (dropField "children")
  else if key = "docker" then d.map (dropField "full_data")
  else if key = "discovery_time" then d.or (time.map .str)
  else d

section Fieldwise

variable {s : Signature} {time : Option String} {fields : Fields}

/-- Finalizing keeps the order of the keys. -/
theorem ascending_finalizeFields (h : fields.Ascending) (s : Signature) (time : Option String) :
    (finalizeFields s time fields).Ascending := by
  have hversion := h.modify "version" (sortList "type" "number")
  unfold finalizeFields
  extract_lets f₁ f₂ f₃ f₄
  -- After the versions, packages are sorted or dropped.
  have h₂ : f₂.Ascending := by
    simp only [f₂]
    split
    · exact hversion.modify ..
    · exact hversion.erase _
  -- Then the children of the process and the data of the container are dropped.
  have h₄ : f₄.Ascending := by
    simp only [f₄, f₃]
    split
    · exact h₂.modify ..
    · exact (h₂.modify ..).modify ..
  cases time with
  | none => exact h₄
  | some time =>
    dsimp only
    split
    · exact h₄
    · exact h₄.insert ..

/-- **What becomes of each field.** -/
theorem get?_finalizeFields (h : fields.Ascending) (key : String) :
    (finalizeFields s time fields).get? key = finalizedValue s time key (fields.get? key) := by
  unfold finalizeFields
  extract_lets f₁ f₂ f₃ f₄
  -- One change after another, as the definition makes them.
  have h₁ : ∀ k, f₁.get? k = _ := Fields.get?_modify fields "version" (sortList "type" "number")
  have h₂ : ∀ k, f₂.get? k = if k = "packages" then
      if s.returnPackages then (f₁.get? k).map (sortList "name" "version") else none
      else f₁.get? k := by
    intro k
    simp only [f₂]
    split
    · exact Fields.get?_modify ..
    · exact Fields.get?_erase (h.modify ..) ..
  have h₃ : ∀ k, f₃.get? k = if k = "process" then
      if s.returnChildren then f₂.get? k else (f₂.get? k).map (dropField "children")
      else f₂.get? k := by
    intro k
    simp only [f₃]
    split
    · simp
    · exact Fields.get?_modify ..
  have h₄ : ∀ k, f₄.get? k = _ := Fields.get?_modify f₃ "docker" (dropField "full_data")
  -- The five fields are different, so at most one of the changes is at this key.
  have hbefore : f₄.get? key = finalizedValue s none key (fields.get? key) := by
    simp only [h₄, h₃, h₂, h₁, finalizedValue]
    grind
  cases time with
  | none => exact hbefore
  | some time =>
    refine (Fields.get?_insert_missing ..).trans ?_
    simp only [hbefore, finalizedValue]
    grind

/-- What becomes of a field is in order if the field was. -/
theorem ordered_finalizedValue {key : String} {old : Option Document} {d : Document}
    (hold : ∀ d ∈ old, d.Ordered) (h : finalizedValue s time key old = some d) : d.Ordered := by
  -- A value that is changed at all is changed by sorting or by dropping a field.
  have hmap : ∀ change : Document → Document,
      (∀ d : Document, d.Ordered → (change d).Ordered) →
      old.map change = some d → d.Ordered := by
    intro change hchange hd
    obtain ⟨e, he, rfl⟩ := Option.map_eq_some_iff.mp hd
    exact hchange e (hold e he)
  unfold finalizedValue at h
  -- One case for each field that finalizing knows.
  split at h
  · exact hmap _ (fun d hd => hd.sortList _ _) h
  split at h
  · split at h
    · exact hmap _ (fun d hd => hd.sortList _ _) h
    · cases h
  split at h
  · split at h
    · exact hold d h
    · exact hmap _ (fun d hd => hd.dropField _) h
  split at h
  · exact hmap _ (fun d hd => hd.dropField _) h
  split at h
  · rcases Option.or_eq_some_iff.mp h with h | ⟨-, h⟩
    · exact hold d h
    · obtain ⟨time, -, rfl⟩ := Option.map_eq_some_iff.mp h
      trivial
  · exact hold d h

/-- Finalizing keeps an instance in order. -/
theorem ordered_finalizeFields (h : (Document.map fields).Ordered) (s : Signature)
    (time : Option String) : (Document.map (finalizeFields s time fields)).Ordered := by
  have hascending := ascending_finalizeFields h.1 s time
  refine ⟨hascending, Document.valuesOrdered_iff.mpr fun entry hentry => ?_⟩
  have hget := hascending.get?_of_mem hentry
  rw [get?_finalizeFields h.1] at hget
  exact ordered_finalizedValue (fun _ hd => h.of_get? hd) hget

/-- What became of a field stays as it is. -/
theorem finalizedValue_finalizedValue {key : String} {old : Option Document}
    (hold : ∀ d ∈ old, d.Ordered) :
    finalizedValue s time key (finalizedValue s time key old) = finalizedValue s time key old := by
  -- Each of the changes does nothing the second time.
  have hmap : ∀ change : Document → Document, (∀ d ∈ old, change (change d) = change d) →
      (old.map change).map change = old.map change := by
    intro change hchange
    cases old with
    | none => rfl
    | some d => exact congrArg some (hchange d rfl)
  have hsort : ∀ minor major, _ := fun minor major =>
    hmap (sortList minor major) fun d _ => sortList_sortList minor major d
  have hdrop : ∀ name, _ := fun name =>
    hmap (dropField name) fun d hd => dropField_dropField (hold d hd) name
  unfold finalizedValue
  -- One case for each field, and for what the signature reports.
  split_ifs
  · exact hsort _ _
  · exact hsort _ _
  · rfl
  · rfl
  · exact hdrop _
  · exact hdrop _
  · rw [Option.or_assoc, Option.or_self]
  · rfl

/-- **Finalizing again changes nothing.** -/
theorem finalizeFields_finalizeFields (h : (Document.map fields).Ordered) :
    finalizeFields s time (finalizeFields s time fields) = finalizeFields s time fields := by
  have hfirst := ordered_finalizeFields h s time
  -- Both are ascending, so it is enough to compare them field by field.
  apply (ordered_finalizeFields hfirst s time).1.ext hfirst.1
  intro key
  rw [get?_finalizeFields hfirst.1, get?_finalizeFields h.1]
  apply finalizedValue_finalizedValue
  intro d hd
  exact h.of_get? hd

end Fieldwise

/-! ## Places of its own -/

namespace Signature

/-- The lists that are sorted, with the fields of their items by which they are. -/
inductive Sorts (s : Signature) : String → String → String → Prop
  | version : Sorts s "version" "type" "number"
  | packages (returned : s.returnPackages = true) : Sorts s "packages" "name" "version"

/-- The places that are not reported. -/
inductive Drops (s : Signature) : Path → Prop
  | packages (kept : s.returnPackages = false) : Drops s [.key "packages"]
  | children (kept : s.returnChildren = false) : Drops s [.key "process", .key "children"]
  | fullData : Drops s [.key "docker", .key "full_data"]

/-- The places of an instance where finalizing changes something. -/
inductive Owns (s : Signature) (time : Option String) (d : Document) : Path → Prop
  | sorted {key minor major : String} {items : List Document} (sorts : s.Sorts key minor major)
    (there : d.at? [.key key] = some (.list items)) : Owns s time d [.key key]
  | dropped {place : Path} (drops : s.Drops place) (there : (d.at? place).isSome = true) :
    Owns s time d place
  | stamped {fields : Fields} (mapping : d = .map fields) (given : time.isSome = true)
    (missing : d.at? [.key "discovery_time"] = none) : Owns s time d [.key "discovery_time"]

end Signature

/-- The second document is what finalizing leaves of the first one. -/
structure Finalized (s : Signature) (time : Option String) (d e : Document) : Prop where
  sorted : ∀ key minor major, s.Sorts key minor major →
    ∀ items, d.at? [.key key] = some (.list items) →
      ∃ sorted, e.at? [.key key] = some (.list sorted) ∧
        StablySorted (sortKeys minor major) items sorted
  dropped : ∀ place, s.Drops place → e.at? place = none
  timed : ∀ t, d.at? [.key "discovery_time"] = some t → e.at? [.key "discovery_time"] = some t
  stamped : ∀ fields, d = .map fields → d.at? [.key "discovery_time"] = none →
    e.at? [.key "discovery_time"] = time.map .str
  mappings : ∀ front ∈ [[], [.key "process"], [.key "docker"]], ∀ fields,
    d.at? front = some (.map fields) → ∃ kept, e.at? front = some (.map kept)
  beside : ∀ path, (∀ place, s.Owns time d place → place.Beside path) → e.at? path = d.at? path

section Places

variable {s : Signature} {time : Option String} {fields : Fields}

/-- A path into a field goes on in what has become of its value. -/
theorem at?_finalizeFields_key (h : (Document.map fields).Ordered) (key : String) (rest : Path) :
    (Document.map (finalizeFields s time fields)).at? (.key key :: rest) =
      (finalizedValue s time key (fields.get? key)).bind (·.at? rest) := by
  rw [Document.at?_cons, Document.child?_map_key, get?_finalizeFields h.1]

/-- What a field leads to is as before, beside the places that finalizing owns. -/
theorem bind_finalizedValue (h : (Document.map fields).Ordered) {key : String} {rest : Path}
    (hbeside : ∀ place, s.Owns time (.map fields) place → place.Beside (.key key :: rest)) :
    (finalizedValue s time key (fields.get? key)).bind (·.at? rest) =
      (fields.get? key).bind (·.at? rest) := by
  have hnot : ¬ s.Owns time (.map fields) [.key key] := fun hown => (hbeside _ hown).1 (by simp)
  -- A list that is sorted would be a place of finalizing's own.
  have hsort : ∀ minor major, s.Sorts key minor major →
      (fields.get? key).map (sortList minor major) = fields.get? key := by
    intro minor major hsorts
    cases hkey : fields.get? key with
    | none => rfl
    | some d =>
      cases d with
      | list items =>
        have hthere : (Document.map fields).at? [.key key] = some (.list items) := by simp [hkey]
        exact absurd (.sorted hsorts hthere) hnot
      | _ => rfl
  -- A field that is dropped is such a place, and the path stays beside it.
  have hdrop : ∀ name, s.Drops [.key key, .key name] →
      ((fields.get? key).map (dropField name)).bind (·.at? rest) =
        (fields.get? key).bind (·.at? rest) := by
    intro name hdrops
    cases hkey : fields.get? key with
    | none => rfl
    | some d =>
      refine at?_dropField (h.of_get? hkey) fun hthere => Path.beside_cons.mp (hbeside _ (.dropped hdrops ?_))
      simpa [hkey] using hthere
  unfold finalizedValue
  -- One case for each field that finalizing knows, and the last for all others.
  split_ifs with hversion hpackages hreturned hprocess hreturned hdocker htime
  · subst hversion
    rw [hsort _ _ .version]
  · subst hpackages
    rw [hsort _ _ (.packages hreturned)]
  · -- Packages that are not returned are dropped, unless there are none.
    subst hpackages
    cases hkey : fields.get? "packages" with
    | none => rfl
    | some d => exact absurd (.dropped (.packages (by simpa using hreturned)) (by simp [hkey])) hnot
  · rfl
  · subst hprocess
    exact hdrop _ (.children (by simpa using hreturned))
  · subst hdocker
    exact hdrop _ .fullData
  · subst htime
    cases hkey : fields.get? "discovery_time" with
    | some d => rfl
    | none =>
      cases time with
      | none => rfl
      | some time => exact absurd (.stamped rfl rfl (by simp [hkey])) hnot
  · rfl

/-- **Beside the places that finalizing owns everything is as before.** -/
theorem at?_finalizeFields (h : (Document.map fields).Ordered) {path : Path}
    (hbeside : ∀ place, s.Owns time (.map fields) place → place.Beside path) :
    (Document.map (finalizeFields s time fields)).at? path = (Document.map fields).at? path := by
  cases path with
  | nil =>
    -- Every place is inside the whole, so there is none that finalizing owns.
    have hnone : ∀ place, ¬ s.Owns time (.map fields) place := fun place hown =>
      (hbeside place hown).2 List.nil_prefix
    have hsame : finalizeFields s time fields = fields := by
      apply (ascending_finalizeFields h.1 s time).ext h.1
      intro key
      have hkey : (finalizedValue s time key (fields.get? key)).bind (·.at? []) =
          (fields.get? key).bind (·.at? []) :=
        bind_finalizedValue h fun place hown => absurd hown (hnone place)
      rw [get?_finalizeFields h.1]
      simpa using hkey
    rw [hsame]
  | cons step rest =>
    cases step with
    | index i => rfl
    | key key =>
      rw [at?_finalizeFields_key h]
      exact bind_finalizedValue h hbeside

/-- A time that is there stays, and one that is missing is noted. -/
theorem finalizedValue_discovery_time (s : Signature) (time : Option String) (d : Option Document) :
    finalizedValue s time "discovery_time" d = d.or (time.map .str) := by
  simp only [finalizedValue, String.reduceEq, if_false, if_true]

/-- **What finalizing leaves of a mapping.** -/
theorem finalized_finalizeFields (h : (Document.map fields).Ordered) (s : Signature)
    (time : Option String) :
    Finalized s time (.map fields) (.map (finalizeFields s time fields)) where
  sorted key minor major hsorts items hitems := by
    have hkey : fields.get? key = some (.list items) := by simpa using hitems
    refine ⟨sortTwoPass minor major items, ?_, sortTwoPass_stable minor major items⟩
    rw [at?_finalizeFields_key h, hkey]
    cases hsorts with
    | version => rfl
    | packages hreturned => simp [finalizedValue, hreturned, sortList]
  dropped place hdrops := by
    -- After a field is dropped nothing is found under its name.
    have hinside : ∀ key name,
        ((fields.get? key).map (dropField name)).bind (·.at? [.key name]) = none := by
      intro key name
      cases hkey : fields.get? key with
      | none => rfl
      | some d =>
        simp [child?_dropField (h.of_get? hkey)]
    cases hdrops with
    | packages hkept => simp [at?_finalizeFields_key h, finalizedValue, hkept]
    | children hkept =>
      rw [at?_finalizeFields_key h]
      simpa [finalizedValue, hkept] using hinside "process" "children"
    | fullData =>
      rw [at?_finalizeFields_key h]
      simpa [finalizedValue] using hinside "docker" "full_data"
  timed t ht := by
    have hkey : fields.get? "discovery_time" = some t := by simpa using ht
    rw [at?_finalizeFields_key h, finalizedValue_discovery_time, hkey]
    rfl
  stamped _ hfields hmissing := by
    obtain rfl := Document.map.inj hfields
    have hkey : fields.get? "discovery_time" = none := by simpa using hmissing
    rw [at?_finalizeFields_key h, finalizedValue_discovery_time, hkey]
    simp
  mappings front hfront inner hinner := by
    simp only [List.mem_cons, List.not_mem_nil, or_false] at hfront
    -- The instance itself, its process, and its container.
    rcases hfront with rfl | rfl | rfl
    · exact ⟨_, rfl⟩
    · have hkey : fields.get? "process" = some (.map inner) := by simpa using hinner
      rw [at?_finalizeFields_key h, hkey]
      cases hreturned : s.returnChildren <;> simp [finalizedValue, hreturned, dropField]
    · have hkey : fields.get? "docker" = some (.map inner) := by simpa using hinner
      simp [at?_finalizeFields_key h, hkey, finalizedValue, dropField]
  beside path hbeside := at?_finalizeFields h hbeside

end Places

/-! ## Instances -/

/-- Whether the tasks of an instance withdraw it. -/
def Withdrawn (d : Document) : Prop :=
  ∃ fields flag, d = .map fields ∧ Fields.get? fields retractionSentinel = some flag ∧
    flag.isTruthy = true

section Instances

variable {s : Signature} {time : Option String} {d : Document}

/-- A mapping is withdrawn if its flag says so; a flag that is missing does not. -/
theorem withdrawn_map {fields : Fields} : Withdrawn (.map fields) ↔
    ((fields.get? retractionSentinel).map Document.isTruthy).getD false = true := by
  cases hflag : fields.get? retractionSentinel with
  | none => simp [Withdrawn, hflag]
  | some flag => simp [Withdrawn, hflag]

/-- A mapping that is not withdrawn is finalized field by field. -/
theorem finalize_map (s : Signature) (time : Option String) {fields : Fields}
    (h : ¬ Withdrawn (.map fields)) :
    finalize s time (.map fields) = .keep (.map (finalizeFields s time fields)) := by
  rw [withdrawn_map] at h
  exact if_neg h

/-- An instance is retracted just if its tasks have withdrawn it. -/
theorem finalize_eq_retract : finalize s time d = .retract ↔ Withdrawn d := by
  cases d with
  | map fields =>
    constructor
    · intro hretract
      by_contra hkept
      rw [finalize_map s time hkept] at hretract
      cases hretract
    · intro hwithdrawn
      exact if_pos (withdrawn_map.mp hwithdrawn)
  -- What is no mapping cannot have the flag.
  | _ => simp [finalize, Withdrawn]

/-- The field by which tasks withdraw an instance is no field that finalizing changes. -/
theorem withdrawn_finalizeFields {fields : Fields} (h : (Document.map fields).Ordered) :
    Withdrawn (.map (finalizeFields s time fields)) ↔ Withdrawn (.map fields) := by
  have hflag : finalizedValue s time retractionSentinel (fields.get? retractionSentinel) =
      fields.get? retractionSentinel := by simp [finalizedValue, retractionSentinel]
  rw [withdrawn_map, withdrawn_map, get?_finalizeFields h.1, hflag]

/-- What is no mapping has none of the places that finalizing owns. -/
theorem Finalized.of_isMap_eq_false (hd : d.isMap = false) : Finalized s time d d := by
  have hnothing : ∀ key rest, d.at? (.key key :: rest) = none := by
    intro key rest
    cases d with
    | map fields => cases hd
    | _ => rfl
  refine ⟨?_, ?_, fun _ => id, ?_, ?_, fun _ _ => rfl⟩
  · intro key minor major _ items hitems
    simp only [hnothing, reduceCtorEq] at hitems
  · intro place hdrops
    cases hdrops <;> exact hnothing ..
  · rintro fields rfl
    cases hd
  · intro front _ fields hfields
    exact ⟨fields, hfields⟩

/-- **An instance is retracted, or kept in its final form.** It is retracted just if it is a mapping and
its tasks have withdrawn it. What is kept otherwise is kept as it is from then on: the lists of versions
and of packages are sorted, what is not reported is gone, and a time that was noted is still there.
Everything beside these places is what it was before. -/
theorem finalize_settles (s : Signature) (time : Option String) (hd : d.Ordered) :
    (finalize s time d = .retract ↔ Withdrawn d) ∧
    (¬ Withdrawn d → ∃ e, finalize s time d = .keep e ∧ finalize s time e = .keep e ∧
      Finalized s time d e) := by
  refine ⟨finalize_eq_retract, fun hkept => ?_⟩
  cases d with
  -- A mapping keeps its flag while it is finalized, so it is kept the second time, too.
  | map fields =>
    refine ⟨_, finalize_map s time hkept, ?_, finalized_finalizeFields hd s time⟩
    rw [finalize_map s time fun h => hkept ((withdrawn_finalizeFields hd).mp h),
      finalizeFields_finalizeFields hd]
  | _ => exact ⟨_, rfl, rfl, .of_isMap_eq_false rfl⟩

end Instances

/-- A server of which neither packages nor children are reported. -/
private def server : Signature := { name := "server", cmdRegexp := "." }

/-- An instance with a time of its own, versions in a wrong order and children of its process. -/
private def worker : Document :=
  .map [("discovery_time", .str "then"),
    ("process", .map [("children", .list [.str "7"]), ("pid", .str "3")]),
    ("version", .list [.map [("number", .str "2")], .map [("number", .str "1")]])]

private theorem ordered_worker : worker.Ordered := by
  have hkeys : (("discovery_time" < "process" ∧ "discovery_time" < "version") ∧
      "process" < "version") ∧ "children" < "pid" := by decide +kernel
  simp only [worker, Document.Ordered, Document.ValuesOrdered, Document.AllOrdered,
    Fields.Ascending, List.pairwise_cons, List.forall_mem_cons, List.not_mem_nil,
    false_implies, implies_true, List.Pairwise.nil, and_true, true_and]
  exact hkeys

/-- Its children are gone and its time is still there, and so is all else of its process. -/
theorem finalize_settles_worker : worker.Ordered ∧ ¬ Withdrawn worker ∧
    ∃ e, finalize server (some "now") worker = .keep e ∧ finalize server (some "now") e = .keep e ∧
      e.at? [.key "process", .key "children"] = none ∧
      e.at? [.key "process", .key "pid"] = some (.str "3") ∧
      e.at? [.key "discovery_time"] = some (.str "then") := by
  have hkept : ¬ Withdrawn worker := by
    rw [worker, withdrawn_map]
    decide
  obtain ⟨e, hfirst, hagain, hfinal⟩ :=
    (finalize_settles server (some "now") ordered_worker).2 hkept
  refine ⟨ordered_worker, hkept, e, hfirst, hagain, hfinal.dropped _ (.children rfl), ?_,
    hfinal.timed _ rfl⟩
  apply hfinal.beside
  intro place hown
  cases hown with
  | sorted hsorts _ => cases hsorts <;> exact ⟨by decide, by decide⟩
  | dropped hdrops _ => cases hdrops <;> exact ⟨by decide, by decide⟩
  | stamped => exact ⟨by decide, by decide⟩

end SoftwareCensus
