import SoftwareCensus.Plugin.Entries
import SoftwareCensus.Proofs.Document.Merging
import SoftwareCensus.Proofs.Plugin.Arguments
import SoftwareCensus.Proofs.Tasks.Loops

/-!
# Recording Facts

Bindings, endpoints, files, messages and versions are recorded as items of lists among the facts. The
plugin looks for an entry that says the same and returns a list of the item or an empty one; it is the
merge that puts it behind the list that is there. The merge leaves out everything where the facts are
equal to the update, but an item is only returned if no entry is equal to it, and an empty list adds
nothing anyhow. So the list is the one from before with the item behind it, unless that was said already.

## Main results

* `carries_iff` : when an entry says the same as an item
* `get?_mergeFields_list` : a list is put behind the one that is there
* `get?_recorded` : the facts after an item was recorded
* `recorded_again` : recording an item again changes nothing
* `lawful_of_mem_recorders` : which plugins record, and what they have in common
* `recording_again` : two calls that record the same
-/

namespace SoftwareCensus

/-! ## Values that equal themselves -/

namespace Document

/-- A list of texts equals itself. -/
theorem same_ofStrings (texts : List String) : (ofStrings texts).same (ofStrings texts) = true := by
  show sameItems (texts.map str) (texts.map str) = true
  induction texts with
  | nil => rfl
  | cons text rest ih =>
    rw [List.map_cons, sameItems, ih, Bool.and_true]
    exact beq_self_eq_true text

end Document

/-- A conversion makes nothing that differs from itself. -/
theorem ArgType.same_of_convert {field : String} {type : ArgType} {d e : Document}
    (h : type.convert field d = .ok e) (hd : d.same d = true) : e.same e = true := by
  -- The conversion kept the value, or made one of the four kinds that equal themselves.
  rcases (has_of_convert h).2 with rfl | hmade
  · exact hd
  · cases hmade with
    | str s => exact beq_self_eq_true s
    | int n => exact beq_self_eq_true n
    | bool b => exact beq_self_eq_true b
    | texts texts => exact Document.same_ofStrings texts

/-- Whether all values of a mapping equal themselves. -/
def Fields.Reflexive (fields : Fields) : Prop :=
  ∀ key v, fields.get? key = some v → v.same v = true

/-- A value that equals itself may be bound to any key. -/
theorem Fields.Reflexive.insert {fields : Fields} (h : fields.Reflexive) {key : String} {d : Document}
    (hd : d.same d = true) : (fields.insert key d).Reflexive := by
  intro k v hv
  rw [get?_insert] at hv
  -- The new binding, or one of the old ones.
  split at hv
  · obtain rfl := Option.some.inj hv
    exact hd
  · exact h k v hv

/-- Arguments in normal form equal themselves if what is given and the defaults do. -/
theorem ArgShape.NormalForm.reflexive {fs : List ArgField} {given out : Fields}
    (h : NormalForm fs given out) (hgiven : given.Reflexive)
    (hdefaults : ∀ f ∈ fs, ∀ d ∈ f.default, d.same d = true) : out.Reflexive := by
  intro key v hv
  by_cases hkey : ∃ f ∈ fs, f.name = key
  · obtain ⟨f, hf, rfl⟩ := hkey
    -- It is the default of the field, or it was converted from what is given.
    by_cases hdefault : ∀ d, given.get? f.name = some d → d = .null
    · exact hdefaults f hf v ((h.defaulted f hf hdefault).symm.trans hv)
    · push Not at hdefault
      obtain ⟨d, hd, hnull⟩ := hdefault
      obtain ⟨e, he, hout⟩ := h.converted f hf d hd hnull
      obtain rfl := Option.some.inj (hout.symm.trans hv)
      exact ArgType.same_of_convert he (hgiven f.name d hd)
  -- The normal form binds no other keys than those of the fields.
  · push Not at hkey
    cases (h.others key hkey).symm.trans hv

namespace Plugin

/-! ## Entries that say the same -/

/-- Whether an entry has all that is in an item. -/
def CarriedBy (item : Fields) (d : Document) : Prop :=
  ∃ fields : Fields, d = .map fields ∧
    ∀ key v, item.get? key = some v → ∃ w, fields.get? key = some w ∧ w.same v = true

variable {item : Fields} {d : Document}

/-- An entry carries an item if it is a mapping with an equal value under every key of the item. -/
theorem carries_iff (hitem : item.Ascending) : carries item d = true ↔ CarriedBy item d := by
  cases d with
  | map fields =>
    have hcarries : carries item (.map fields) = true ↔
        ∀ entry ∈ item, ∃ w, Fields.get? fields entry.1 = some w ∧ w.same entry.2 = true := by
      simp only [carries, List.all_eq_true, Option.any_eq_true]
      rfl
    rw [hcarries]
    -- The entries of an ascending item are its bindings.
    constructor
    · intro h
      exact ⟨fields, rfl, fun key v hv => h (key, v) (Fields.mem_of_get? hv)⟩
    · rintro ⟨_, heq, h⟩ ⟨key, v⟩ hentry
      obtain rfl := Document.map.inj heq
      exact h key v (hitem.get?_of_mem hentry)
  | _ =>
    refine iff_of_false Bool.false_ne_true ?_
    rintro ⟨_, heq, -⟩
    cases heq

/-- An item that equals itself is carried by itself. -/
theorem carriedBy_self (hitem : item.Reflexive) : CarriedBy item (.map item) :=
  ⟨item, rfl, fun key v hv => ⟨v, hv, hitem key v hv⟩⟩

/-- A mapping that is equal to an item carries it. -/
theorem carriedBy_of_same {fields : Fields} (h : Document.sameFields fields item = true) :
    CarriedBy item (.map fields) := by
  refine ⟨fields, rfl, fun key v hv => ?_⟩
  have hkey := Document.get?_of_sameFields h key
  rw [hv] at hkey
  generalize fields.get? key = bound at hkey
  cases hkey with
  | some hsame => exact ⟨_, rfl, hsame⟩

/-! ## Merging a list -/

/-- The entries of a list among the facts. What is no list has none. -/
def listed (facts : Document) (key : String) : List Document :=
  ((facts.field? key).bind Document.asList?).getD []

section Merging

open Document

variable {base : Fields} {key : String} {new : List Document}

/-- Facts that are equal to an update with one empty list are that update. -/
theorem eq_of_sameFields_nil (h : sameFields base [(key, list [])] = true) :
    base = [(key, list [])] := by
  obtain _ | ⟨⟨bound, d⟩, rest⟩ := base
  · cases h
  · simp only [sameFields, Bool.and_eq_true, beq_iff_eq] at h
    obtain ⟨⟨rfl, hd⟩, hrest⟩ := h
    -- There is one key only, and a list that is equal to the empty one is empty.
    obtain rfl : rest = [] := by
      cases rest with
      | nil => rfl
      | cons => cases hrest
    cases d with
    | list items =>
      cases items with
      | nil => rfl
      | cons => cases hd
    | _ => cases hd

/-- **A list is put behind the one that is there**, unless the shortcut is taken and it is not empty. -/
theorem get?_mergeFields_list (hbase : base.Ascending)
    (hshortcut : sameFields base [(key, list new)] = true → new = []) :
    (mergeFields .append base [(key, list new)]).Ascending ∧
      ∀ k, (mergeFields .append base [(key, list new)]).get? k =
        if k = key then some (list (listed (map base) key ++ new)) else base.get? k := by
  -- Under the key there is nothing, a list, or something that is replaced by a list.
  have hlisted : mergeValue .append (base.get? key) (list new) = list (listed (map base) key ++ new) := by
    rw [listed, field?]
    cases base.get? key with
    | none => rfl
    | some old => cases old <;> rfl
  rw [mergeFields]
  split
  -- The shortcut is taken where there are no facts, or facts that are equal to the update.
  case isTrue hskip =>
    refine ⟨List.pairwise_singleton .., fun k => ?_⟩
    rcases Bool.or_eq_true_iff.mp hskip with hempty | hsame
    · obtain rfl := List.isEmpty_iff.mp hempty
      rw [Fields.get?_cons]
      simp only [eq_comm (a := key)]
      rfl
    · -- There is nothing but an empty list, and the update is the same.
      obtain rfl := hshortcut hsame
      obtain rfl := eq_of_sameFields_nil hsame
      split
      case isTrue hk => simp [hk, listed, field?, asList?, Fields.get?_cons]
      case isFalse => rfl
  case isFalse =>
    rw [mergeEntries, mergeEntries, hlisted]
    exact ⟨hbase.insert key _, Fields.get?_insert base key _⟩

end Merging

/-! ## Recording an item -/

section Recorded

variable {facts : Document} {key : String}

/-- The items that are added to a list: the item, unless an entry of the list carries it. -/
def newItems (facts : Document) (key : String) (item : Fields) : List Document :=
  if (listed facts key).any (carries item) then [] else [.map item]

/-- The facts after an item was recorded. -/
def recorded (key : String) (item : Fields) (facts : Document) : Document :=
  .mergeInto .append facts [(key, .list (newItems facts key item))]

/-- What the plugin returns is a list with the new items, and the policy to append it. -/
theorem appendEntry_eq (facts : Document) (key : String) (item : Fields) :
    appendEntry facts key item =
      .map [(instanceKey, .map [(key, .list (newItems facts key item))]),
        (listMergeKey, .str ListMerge.append.name)] := by
  have hknown : (((facts.field? key).bind Document.asList?).any fun entries =>
      entries.any (carries item)) = (listed facts key).any (carries item) := by
    rw [listed]
    cases (facts.field? key).bind Document.asList? <;> rfl
  rw [appendEntry, hknown]
  rfl

/-- Only a mapping is equal to a mapping. -/
theorem eq_map_of_same {d : Document} (h : d.same (.map item) = true) :
    ∃ fields, d = .map fields ∧ Document.sameFields fields item = true := by
  cases d with
  | map fields => exact ⟨fields, rfl, h⟩
  | _ => cases h

/-- Only a list of one item is equal to a list of one item. -/
theorem eq_singleton_of_same {old d : Document} (h : old.same (.list [d]) = true) :
    ∃ e, old = .list [e] ∧ e.same d = true := by
  cases old with
  | list items =>
    cases items with
    | nil => cases h
    | cons e rest =>
      obtain ⟨he, hrest⟩ := Bool.and_eq_true_iff.mp h
      obtain rfl := List.eq_nil_of_length_eq_zero (Document.length_eq_of_sameItems hrest)
      exact ⟨e, rfl, he⟩
  | _ => cases h

/-- The item is not added to a list that is equal to the one to add. -/
theorem newItems_of_sameFields {base : Fields} (hitem : item.Ascending)
    (h : Document.sameFields base [(key, .list (newItems (.map base) key item))] = true) :
    newItems (.map base) key item = [] := by
  unfold newItems at h ⊢
  split
  case isTrue => rfl
  case isFalse hnot =>
    rw [if_neg hnot] at h
    -- Equal mappings have equal values under the key.
    have hkey := Document.get?_of_sameFields h key
    rw [Fields.get?_cons, if_pos rfl] at hkey
    refine absurd ?_ hnot
    rw [listed, Document.field?]
    generalize base.get? key = bound at hkey
    cases hkey with
    | @some old _ hsame =>
      -- The list has one entry, and that is equal to the item.
      obtain ⟨d, rfl, hd⟩ := eq_singleton_of_same hsame
      obtain ⟨fields, rfl, hfields⟩ := eq_map_of_same hd
      exact List.any_eq_true.mpr
        ⟨_, List.mem_singleton_self _, (carries_iff hitem).mpr (carriedBy_of_same hfields)⟩

/-- **The facts after an item was recorded**, key by key. -/
theorem get?_recorded (hfacts : facts.Ordered) (hitem : item.Ascending) :
    ∃ after : Fields, recorded key item facts = .map after ∧ after.Ascending ∧
      ∀ k, after.get? k = if k = key then some (.list (listed facts key ++ newItems facts key item))
        else facts.field? k := by
  -- What is no mapping is replaced, as if it were an empty one.
  obtain ⟨base, hbase, hmerge, hfield⟩ : ∃ base : Fields, base.Ascending ∧
      (∀ update, facts.mergeInto .append update = .map (Document.mergeFields .append base update)) ∧
      ∀ k, facts.field? k = base.get? k := by
    cases facts with
    | map base => exact ⟨base, hfacts.1, fun _ => rfl, fun _ => rfl⟩
    | _ => exact ⟨[], List.Pairwise.nil, fun _ => rfl, fun _ => rfl⟩
  have hlisted : listed facts key = listed (.map base) key := by
    rw [listed, hfield]
    rfl
  have hnew : newItems facts key item = newItems (.map base) key item := by
    rw [newItems, hlisted]
    rfl
  -- The shortcut of the merge is only taken where there is nothing to add.
  obtain ⟨hascending, hget⟩ := get?_mergeFields_list hbase (newItems_of_sameFields hitem)
  refine ⟨_, (hmerge _).trans (by rw [hnew]), hascending, fun k => ?_⟩
  rw [hget, hlisted, hnew, hfield]

/-- What recording an item does to the facts: its list is as before, if one of the entries carries the
item, and else the item is behind it. Nothing else changes. -/
structure Records (key : String) (item : Fields) (before after : Document) : Prop where
  known : (∃ d ∈ listed before key, CarriedBy item d) →
    after.field? key = some (.list (listed before key))
  added : (¬ ∃ d ∈ listed before key, CarriedBy item d) →
    after.field? key = some (.list (listed before key ++ [.map item]))
  others : ∀ k, k ≠ key → after.field? k = before.field? k

/-- Recording an item does to the facts what it should. -/
theorem records_recorded (hfacts : facts.Ordered) (hitem : item.Ascending) :
    Records key item facts (recorded key item facts) := by
  obtain ⟨after, hafter, -, hget⟩ := get?_recorded hfacts hitem
  have hcarried : (listed facts key).any (carries item) = true ↔
      ∃ d ∈ listed facts key, CarriedBy item d := by
    simp only [List.any_eq_true, carries_iff hitem]
  have hkey := (hget key).trans (if_pos rfl)
  rw [hafter]
  refine ⟨fun h => ?_, fun h => ?_, fun k hk => (hget k).trans (if_neg hk)⟩
  -- The item is known, and nothing is put behind the list.
  · rw [newItems, if_pos (hcarried.mpr h), List.append_nil] at hkey
    exact hkey
  -- It is not, and the item is put there.
  · rw [newItems, if_neg (mt hcarried.mp h)] at hkey
    exact hkey

/-- **Recording an item again changes nothing.** Its list has an entry that carries it by now. -/
theorem recorded_again (hfacts : facts.Ordered) (hitem : item.Ascending) (hself : item.Reflexive) :
    recorded key item (recorded key item facts) = recorded key item facts := by
  obtain ⟨after, hafter, hascending, hget⟩ := get?_recorded hfacts hitem
  rw [hafter]
  have hlisted : listed (.map after) key = listed facts key ++ newItems facts key item := by
    rw [listed, Document.field?, hget, if_pos rfl]
    rfl
  -- Either an entry carried the item before, or the item is an entry now and carries itself.
  have hcarried : (listed (.map after) key).any (carries item) = true := by
    rw [hlisted, List.any_append, newItems]
    split
    case isTrue h => rw [h, Bool.true_or]
    case isFalse => simp [carries_iff hitem, carriedBy_self hself]
  have hnone : newItems (.map after) key item = [] := if_pos hcarried
  -- So nothing is put behind the list, and a merge with nothing binds what was bound.
  obtain ⟨hmerged, hgetMerged⟩ := get?_mergeFields_list hascending fun _ => rfl
  rw [recorded, hnone]
  refine congrArg Document.map (hmerged.ext hascending fun k => ?_)
  rw [hgetMerged, List.append_nil, hlisted]
  split
  case isTrue hk => rw [hk, hget, if_pos rfl]
  case isFalse => rfl

end Recorded

/-! ## Plugins that record -/

/-- A plugin, with the list that it records in and the item that it makes of its arguments. -/
structure Recorder where
  plugin : Plugin
  key : String
  item : Document → Fields

/-- What makes a plugin record. -/
structure Recorder.Lawful (r : Recorder) : Prop where
  run : ∀ call, r.plugin.run call =
    call.answer (.ok (appendEntry call.facts r.key (r.item call.args)))
  /-- Arguments are fields of several names, whose defaults equal themselves. -/
  args : ∃ fs : List ArgField, r.plugin.args = .fields fs ∧ (fs.map (·.name)).Nodup ∧
    ∀ f ∈ fs, ∀ d ∈ f.default, d.same d = true
  /-- An item is as good as its arguments. -/
  item : ∀ fields : Fields, fields.Ascending → fields.Reflexive →
    (r.item (.map fields)).Ascending ∧ (r.item (.map fields)).Reflexive

/-- The item that has all arguments. -/
def itemOfAll (args : Document) : Fields := args.asMap?.getD []

/-- The item of a version. -/
def itemOfVersion (args : Document) : Fields :=
  Fields.ofList [("type", (args.field? "version_type").getD .null),
    ("number", (args.field? "version_number").getD .null)]

/-- The plugins that record. -/
def recorders : List Recorder :=
  [⟨addBindingInfo, "bindings", itemOfAll⟩, ⟨addEndpointInfo, "endpoints", itemOfAll⟩,
    ⟨addFileInfo, "files", itemOfAll⟩, ⟨addMessageInfo, "messages", itemOfAll⟩,
    ⟨addVersionInfo, "version", itemOfVersion⟩]

section Recorders

variable {r : Recorder} {raw args : Document}

/-- Four of the plugins differ in their names, fields and lists only. -/
theorem lawful_recorder (name description key : String) {fs : List ArgField} (anyOf : List String)
    (hnames : (fs.map (·.name)).Nodup) (hdefaults : ∀ f ∈ fs, ∀ d ∈ f.default, d.same d = true) :
    Recorder.Lawful ⟨recorder name description key fs anyOf, key, itemOfAll⟩ where
  run _ := rfl
  args := ⟨fs, rfl, hnames, hdefaults⟩
  item _ hascending hself := ⟨hascending, hself⟩

/-- The item of a version has two values of the arguments, or null where one is missing. -/
theorem reflexive_itemOfVersion {fields : Fields} (h : fields.Reflexive) :
    (itemOfVersion (.map fields)).Reflexive := by
  have hvalue (name : String) :
      ((fields.get? name).getD .null).same ((fields.get? name).getD .null) = true := by
    cases hname : fields.get? name with
    | none => rfl
    | some v => exact h name v hname
  have hempty : Fields.Reflexive [] := fun _ _ hv => by cases hv
  show Fields.Reflexive (.insert (.insert [] "type" _) "number" _)
  exact (hempty.insert (hvalue "version_type")).insert (hvalue "version_number")

/-- The fifth makes its item of two of its arguments. -/
theorem lawful_addVersionInfo : Recorder.Lawful ⟨addVersionInfo, "version", itemOfVersion⟩ where
  run _ := rfl
  args := ⟨_, rfl, by decide, by decide⟩
  item _ _ hself := ⟨Fields.Ascending.extend List.Pairwise.nil _, reflexive_itemOfVersion hself⟩

/-- **All plugins that record are lawful.** -/
theorem lawful_of_mem_recorders (hr : r ∈ recorders) : r.Lawful := by
  simp only [recorders, List.mem_cons, List.not_mem_nil, or_false] at hr
  rcases hr with rfl | rfl | rfl | rfl | rfl
  case inr.inr.inr.inr => exact lawful_addVersionInfo
  all_goals exact lawful_recorder _ _ _ _ (by decide) (by decide)

/-- Valid arguments are those that the shape of the arguments makes. -/
theorem validate_args {p : Plugin} (h : p.validate raw = .ok args) : p.args.validate raw = .ok args := by
  obtain ⟨valid, hvalid, hrest⟩ := except_bind_eq_ok (except_mapError_eq_ok h)
  obtain ⟨-, -, hargs⟩ := except_bind_eq_ok hrest
  rw [hvalid, ← hargs]
  rfl

/-- Valid arguments are a mapping whose values equal themselves, and so is the item that they make. -/
theorem Recorder.Lawful.item_of_validate (h : r.Lawful) {room : Nat} (hraw : raw.IsJson room)
    (hvalid : r.plugin.validate raw = .ok args) : (r.item args).Ascending ∧ (r.item args).Reflexive := by
  obtain ⟨fs, hfs, hnames, hdefaults⟩ := h.args
  have hargs := validate_args hvalid
  rw [hfs] at hargs
  obtain ⟨given, hgiven, hfields⟩ := ArgShape.validate_eq_ok_iff.mp hargs
  obtain ⟨-, out, hout, rfl⟩ := ArgShape.validateFields_eq_ok_iff.mp hfields
  have hnormal := ArgShape.normalForm_of_takeFields hnames hout
  -- What is given is JSON, so its values equal themselves.
  have hself : given.Reflexive := by
    intro key v hv
    cases raw with
    | null =>
      obtain rfl := Option.some.inj hgiven
      cases hv
    | map entries =>
      obtain rfl := Option.some.inj hgiven
      exact Document.same_self v (Document.valuesAreJson_iff.mp hraw.2 _ (Fields.mem_of_get? hv))
    | _ => cases hgiven
  exact h.item out hnormal.ascending (hnormal.reflexive hself hdefaults)

end Recorders

/-! ## Calls that record -/

section Calls

open Tasks Run Interpreter

variable {r : Recorder} {i : Interpreter} {t : Definition} {written args : Document} {s : Session}

/-- What becomes of the result of a plugin that records. -/
theorem settle_answer (t : Definition) (p : Plugin) (limit : Option Nat) (call : Call) (key : String)
    (item : Fields) (s : Session) :
    settle t p limit (call.answer (.ok (appendEntry call.facts key item))) s =
      (.ok (.map [(instanceKey, .map [(key, .list (newItems call.facts key item))])]),
        s.changed fun c => { c with facts := recorded key item call.facts }) := by
  rw [appendEntry_eq]
  rfl

/-- Whether a plugin is called, with some arguments in normal form. -/
structure IsCalled (i : Interpreter) (t : Definition) (p : Plugin) (written args : Document)
    (s : Session) : Prop where
  args : (argsOf t.label p written s).1 = .ok args
  limit : ∃ limit, (i.limitOf t s).1 = .ok limit

/-- **A call of a plugin that records** succeeds, and what it does is to record. -/
theorem IsCalled.callPlugin_eq (hr : r.Lawful) (h : IsCalled i t r.plugin written args s) :
    i.callPlugin t r.plugin written s =
      (.ok (.map [(instanceKey,
          .map [(r.key, .list (newItems s.context.facts r.key (r.item args)))])]),
        (s.noted (.called r.plugin.name s.context.environmentEntries)).changed fun c =>
          { c with facts := recorded r.key (r.item args) c.facts }) := by
  obtain ⟨limit, hlimit⟩ := h.limit
  -- Whatever comes before the call only reads, so the plugin sees the facts of this session.
  rw [callPlugin, bind_of_readsOnly (readsOnly_argsOf _ _ _) h.args,
    bind_of_readsOnly (readsOnly_limitOf i t) hlimit]
  show settle t r.plugin limit (r.plugin.run (callOf t s.context args)) (s.noted _) = _
  rw [hr.run]
  exact settle_answer ..

/-- **What is recorded again is recorded once.** A call of a plugin that records, with arguments that
are valid, puts its item behind the list that is there, unless an entry of the list carries the item;
nothing else changes. If the plugin is then called again with these arguments, nothing changes at all. -/
theorem recording_again (hr : r ∈ recorders) {raw : Document} {room : Nat} (hraw : raw.IsJson room)
    (hvalid : r.plugin.validate raw = .ok args) (hfacts : s.context.facts.Ordered)
    (hcalled : IsCalled i t r.plugin written args s) :
    ∃ d after, i.callPlugin t r.plugin written s = (.ok d, after) ∧
      Records r.key (r.item args) s.context.facts after.context.facts ∧
      after.context = { s.context with facts := after.context.facts } ∧
      ∀ (j : Interpreter) (u : Definition) (rewritten : Document),
        IsCalled j u r.plugin rewritten args after →
        ∃ e last, j.callPlugin u r.plugin rewritten after = (.ok e, last) ∧
          last.context = after.context := by
  have hlawful := lawful_of_mem_recorders hr
  obtain ⟨hitem, hself⟩ := hlawful.item_of_validate hraw hvalid
  refine ⟨_, _, hcalled.callPlugin_eq hlawful, records_recorded hfacts hitem, rfl,
    fun j u rewritten hagain => ⟨_, _, hagain.callPlugin_eq hlawful, ?_⟩⟩
  -- Both calls record the same item, and the second one changes nothing.
  exact congrArg (fun facts => { s.context with facts }) (recorded_again hfacts hitem hself)

/-- The arguments that record a version. -/
private def versionArgs : Document :=
  .map [("version_number", .str "1.2"), ("version_type", .str "package")]

private def recordVersion : Definition where
  payload := .plugin addVersionInfo.name versionArgs

private def versioning : Interpreter := ⟨⟨[addVersionInfo]⟩, fun _ => default, none, none, 2⟩

/-- A session in which another version was recorded. -/
private def versioned : Session where
  context := { facts := .map [("version", .list [.map [("number", .str "1.1")]])] }

private theorem isCalled_recordVersion (s : Session) :
    IsCalled versioning recordVersion addVersionInfo versionArgs versionArgs s where
  args := rfl
  limit := ⟨none, rfl⟩

theorem recording_again_version : ∃ d after,
    versioning.callPlugin recordVersion addVersionInfo versionArgs versioned = (.ok d, after) ∧
      Records "version" (itemOfVersion versionArgs) versioned.context.facts after.context.facts ∧
      ∃ e last,
        versioning.callPlugin recordVersion addVersionInfo versionArgs after = (.ok e, last) ∧
          last.context = after.context := by
  have hrecorder : (⟨addVersionInfo, "version", itemOfVersion⟩ : Recorder) ∈ recorders := by
    simp [recorders]
  have hjson : versionArgs.IsJson 1 := ⟨Nat.one_pos, trivial, trivial, trivial⟩
  have hordered : versioned.context.facts.Ordered := by
    simp [versioned, Document.Ordered, Document.ValuesOrdered, Document.AllOrdered, Fields.Ascending]
  obtain ⟨d, after, hcall, hrecords, -, hagain⟩ := recording_again hrecorder hjson rfl hordered
    (isCalled_recordVersion versioned)
  exact ⟨d, after, hcall, hrecords, hagain versioning recordVersion versionArgs
    (isCalled_recordVersion after)⟩

end Calls

end Plugin

end SoftwareCensus
