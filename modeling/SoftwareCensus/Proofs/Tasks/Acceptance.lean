import SoftwareCensus.Proofs.Document.Entries
import SoftwareCensus.Tasks.Definition

/-!
# Tasks that are Accepted

A mapping is a task when one of its keys says what the task does and all others modify it. A few of the
modifiers have a shape of their own; where null is given instead it counts as nothing. What is read of
such a mapping still has all of its entries: the modifiers as they are written, and the one entry beside
them in what the task does.

## Main results

* `Definition.payloadEntry_eq_ok_iff` : which entry says what a task does
* `Definition.payloadOf_eq_ok_iff` : what it says
* `Definition.parse_accepts_wellFormed` : which documents are tasks, and what is read of them
-/

namespace SoftwareCensus.Tasks.Definition

variable {entries : Fields} {key label : String} {args d : Document}

/-! ## Modifiers -/

/-- Whether a value of some shape, if any but null, is given under a key. -/
def Optional (entries : Fields) (key : String) (shape : Document → Prop) : Prop :=
  ∀ d, entries.get? key = some d → d = .null ∨ shape d

/-- Whether a value is what is given under a key. Null is as good as nothing. -/
def Given (entries : Fields) (key : String) (value : Option Document) : Prop :=
  ∀ d, value = some d ↔ entries.get? key = some d ∧ d ≠ .null

/-- What counts as given under a key is what is given and not null. -/
theorem given_present (entries : Fields) (key : String) : Given entries key (present entries key) := by
  intro d
  rw [present, Option.filter_eq_some_iff]
  refine and_congr_right fun _ => ?_
  cases d <;> simp [Document.isNull]

/-- What is right without a value, and with one just if that has some shape, is right if a value of that
shape, if any, is given. -/
theorem iff_optional {shape : Document → Prop} {right : Prop}
    (hnone : present entries key = none → right)
    (hsome : ∀ d, present entries key = some d → (right ↔ shape d)) :
    right ↔ Optional entries key shape := by
  have hgiven := given_present entries key
  cases hpresent : present entries key with
  | none =>
    -- What is given under the key can only be null.
    refine iff_of_true (hnone hpresent) fun d hd => ?_
    by_contra hother
    have hvalue := (hgiven d).mpr ⟨hd, fun hnull => hother (.inl hnull)⟩
    rw [hpresent] at hvalue
    cases hvalue
  | some value =>
    obtain ⟨hvalue, hnull⟩ := (hgiven value).mp hpresent
    refine (hsome value hpresent).trans ⟨fun hshape d hd => ?_, fun hoptional => ?_⟩
    · obtain rfl := Option.some.inj (hvalue.symm.trans hd)
      exact .inr hshape
    · exact (hoptional value hvalue).resolve_left hnull

/-- A modifier that has to be a mapping is one, or is null or missing. -/
theorem mappingOf_accepts_iff {field : String} :
    (∃ fields, mappingOf entries field label = .ok fields) ↔
      Optional entries field fun d => ∃ fields, d = .map fields := by
  -- Nothing stands for the empty mapping.
  apply iff_optional
  · intro h
    exact ⟨[], by simp [mappingOf, h]⟩
  · intro d h
    cases d <;> simp [mappingOf, h]

/-- A name to register is a text, or is null or missing. -/
theorem registerOf_accepts_iff :
    (∃ register, registerOf entries = .ok register) ↔
      Optional entries "register" fun d => ∃ s, d = .str s := by
  apply iff_optional
  · intro h
    exact ⟨none, by simp [registerOf, h]⟩
  · intro d h
    cases d <;> simp [registerOf, h]

/-! ## What a task does -/

/-- What an entry of a task says that the task does. -/
inductive Says : String → Document → Payload → Prop
  | block (tasks : List Document) : Says blockKey (.list tasks) (.block tasks)
  | path (s : String) : Says inclusionKey (.str s) (.inclusion (.str s))
  | file {fields : Fields} {file : Document} (given : fields.get? "file" = some file)
    (notNull : file ≠ .null) : Says inclusionKey (.map fields) (.inclusion file)
  | plugin {name : String} (args : Document) (notBlock : name ≠ blockKey)
    (notInclusion : name ≠ inclusionKey) : Says name args (.plugin name args)

/-- **What the entry of a task says.** -/
theorem payloadOf_eq_ok_iff {payload : Payload} :
    payloadOf label key args = .ok payload ↔ Says key args payload := by
  constructor
  · intro h
    unfold payloadOf at h
    split at h
    -- Under the key of a block there has to be a list.
    case isTrue hblock =>
      obtain rfl := beq_iff_eq.mp hblock
      cases args with
      | list tasks =>
        cases h
        exact .block tasks
      | _ => cases h
    case isFalse hblock =>
      split at h
      -- Under that of an inclusion, a path or a mapping with one that is not null.
      case isTrue hinclusion =>
        obtain rfl := beq_iff_eq.mp hinclusion
        cases args with
        | str s =>
          cases h
          exact .path s
        | map fields =>
          dsimp only at h
          split at h
          case h_1 file hfile =>
            cases h
            obtain ⟨hgiven, hnull⟩ := (given_present fields "file" file).mp hfile
            exact .file hgiven hnull
          case h_2 => cases h
        | _ => cases h
      case isFalse hinclusion =>
        cases h
        exact .plugin args (by simpa using hblock) (by simpa using hinclusion)
  -- The other way around, each kind of entry is read by its own branch.
  · intro h
    have hkeys : (inclusionKey == blockKey) = false := by decide
    cases h with
    | block tasks => simp [payloadOf]
    | path s => simp [payloadOf, hkeys]
    | file hgiven hnull =>
      have hfile := (given_present _ "file" _).mpr ⟨hgiven, hnull⟩
      simp [payloadOf, hkeys, hfile]
    | plugin args hblock hinclusion => simp [payloadOf, hblock, hinclusion]

/-- Whether one key of a mapping is no modifier, with what is given under it. -/
structure Lone (entries : Fields) (key : String) (args : Document) : Prop where
  only : entries.keys.filter (fun k => !modifierKeys.contains k) = [key]
  value : entries.get? key = some args

/-- What is left beside the modifiers is none of them. -/
theorem not_modifier_of_filter
    (h : entries.filter (fun entry => !modifierKeys.contains entry.1) = [(key, args)]) :
    modifierKeys.contains key = false := by
  have hkey : (key, args) ∈ entries.filter fun entry => !modifierKeys.contains entry.1 := by
    rw [h]
    exact List.mem_singleton.mpr rfl
  simpa using (List.mem_filter.mp hkey).2

/-- All entries but those of the modifiers are the one with this key. -/
theorem lone_iff_filter :
    Lone entries key args ↔
      entries.filter (fun entry => !modifierKeys.contains entry.1) = [(key, args)] := by
  have hkeys : entries.keys.filter (fun k => !modifierKeys.contains k) =
      (entries.filter fun entry => !modifierKeys.contains entry.1).map (·.1) := List.filter_map
  -- A key that is no modifier is looked up among the entries that are left.
  have hget : ∀ k, modifierKeys.contains k = false →
      Fields.get? (entries.filter fun entry => !modifierKeys.contains entry.1) k =
        entries.get? k := by
    intro k hk
    rw [Fields.get?_filter fun k => !modifierKeys.contains k, hk]
    rfl
  constructor
  -- One key is left, so one entry is, and its value is what is found under the key.
  · rintro ⟨honly, hvalue⟩
    rw [hkeys, List.map_eq_singleton_iff] at honly
    obtain ⟨⟨bound, v⟩, hfilter, rfl⟩ := honly
    have hfound := hget bound (not_modifier_of_filter hfilter)
    rw [hfilter, hvalue, Fields.get?_cons, if_pos rfl] at hfound
    rw [hfilter, Option.some.inj hfound]
  · intro hfilter
    refine ⟨by rw [hkeys, hfilter, List.map_singleton], ?_⟩
    rw [← hget key (not_modifier_of_filter hfilter), hfilter, Fields.get?_cons, if_pos rfl]

/-- **Which entry says what a task does**: the one that is left beside the modifiers. -/
theorem payloadEntry_eq_ok_iff :
    payloadEntry label entries = .ok (key, args) ↔ Lone entries key args := by
  rw [lone_iff_filter]
  unfold payloadEntry
  generalize entries.filter (fun entry => !modifierKeys.contains entry.1) = others
  -- Nothing is left, one entry, or at least two.
  match others with
  | [] => simp
  | [entry] => simp
  | _ :: (other, _) :: _ => simp

/-! ## Whole tasks -/

/-- Whether a mapping is a task. -/
structure WellFormed (entries : Fields) : Prop where
  payload : ∃ key args payload, Lone entries key args ∧ Says key args payload
  loopControl : Optional entries "loop_control" fun d => ∃ fields, d = .map fields
  vars : Optional entries "vars" fun d => ∃ fields, d = .map fields
  register : Optional entries "register" fun d => ∃ s, d = .str s

/-- Whether a task has all entries of a mapping. -/
structure Keeps (entries : Fields) (t : Definition) : Prop where
  all : ∃ key args, modifierKeys.contains key = false ∧ Says key args t.payload ∧
    entries.Perm ((key, args) :: t.attributes)
  modifiers : ∀ entry, entry ∈ t.attributes ↔
    entry ∈ entries ∧ modifierKeys.contains entry.1 = true
  items : Given entries "loop" t.items
  condition : Given entries "when" t.condition
  ignoreErrors : Given entries "ignore_errors" t.ignoreErrors
  environment : Given entries "environment" t.environment
  timeout : Given entries "timeout" t.timeout

/-- What a task is known by when something is wrong with it. -/
def knownAs (index : Nat) (entries : Fields) : String :=
  (nameOf? entries).getD ("#" ++ toString index)

/-- What is read of a mapping. -/
theorem parse_map_eq_ok_iff {index : Nat} {t : Definition} :
    parse index (.map entries) = .ok t ↔
      ∃ key args payload control vars register, Lone entries key args ∧ Says key args payload ∧
        mappingOf entries "loop_control" (knownAs index entries) = .ok control ∧
        mappingOf entries "vars" (knownAs index entries) = .ok vars ∧
        registerOf entries = .ok register ∧
        t = {
          name := nameOf? entries, payload, register, vars
          items := present entries "loop"
          loopControl := loopControlOf control
          condition := present entries "when"
          ignoreErrors := present entries "ignore_errors"
          environment := present entries "environment"
          timeout := present entries "timeout"
          attributes := entries.filter fun entry => modifierKeys.contains entry.1 } := by
  constructor
  -- Reading goes through the parts one after another, and each has to come to something.
  · intro h
    unfold parse at h
    dsimp only at h
    obtain ⟨⟨key, args⟩, hentry, h⟩ := except_bind_eq_ok h
    obtain ⟨payload, hpayload, h⟩ := except_bind_eq_ok h
    obtain ⟨control, hcontrol, h⟩ := except_bind_eq_ok h
    obtain ⟨vars, hvars, h⟩ := except_bind_eq_ok h
    obtain ⟨register, hregister, h⟩ := except_bind_eq_ok h
    exact ⟨key, args, payload, control, vars, register, payloadEntry_eq_ok_iff.mp hentry,
      payloadOf_eq_ok_iff.mp hpayload, hcontrol, hvars, hregister, (Except.ok.inj h).symm⟩
  · rintro ⟨key, args, payload, control, vars, register, hentry, hpayload, hcontrol, hvars,
      hregister, rfl⟩
    unfold parse
    dsimp only
    rw [payloadEntry_eq_ok_iff.mpr hentry]
    show (payloadOf _ key args >>= fun payload => _) = _
    rw [payloadOf_eq_ok_iff.mpr hpayload]
    unfold knownAs at hcontrol hvars
    rw [hcontrol, hvars, hregister]
    rfl

/-- A mapping is read as a task exactly if it is one. -/
theorem wellFormed_iff {index : Nat} :
    (∃ t, parse index (.map entries) = .ok t) ↔ WellFormed entries := by
  simp only [parse_map_eq_ok_iff]
  constructor
  · rintro ⟨t, key, args, payload, control, vars, register, hentry, hpayload, hcontrol, hvars,
      hregister, -⟩
    exact ⟨⟨key, args, payload, hentry, hpayload⟩,
      mappingOf_accepts_iff.mp ⟨control, hcontrol⟩, mappingOf_accepts_iff.mp ⟨vars, hvars⟩,
      registerOf_accepts_iff.mp ⟨register, hregister⟩⟩
  -- The parts may be read one by one, as none depends on another.
  · rintro ⟨⟨key, args, payload, hentry, hpayload⟩, hcontrol, hvars, hregister⟩
    obtain ⟨control, hcontrol⟩ := mappingOf_accepts_iff.mpr hcontrol
    obtain ⟨vars, hvars⟩ := mappingOf_accepts_iff.mpr hvars
    obtain ⟨register, hregister⟩ := registerOf_accepts_iff.mpr hregister
    exact ⟨_, key, args, payload, control, vars, register, hentry, hpayload, hcontrol, hvars,
      hregister, rfl⟩

/-- What is read of a mapping has all of its entries. -/
theorem keeps_of_parse {index : Nat} {t : Definition} (h : parse index (.map entries) = .ok t) :
    Keeps entries t := by
  obtain ⟨key, args, payload, control, vars, register, hentry, hpayload, -, -, -, rfl⟩ :=
    parse_map_eq_ok_iff.mp h
  have hfilter := lone_iff_filter.mp hentry
  -- The entries are those of the modifiers and all others, and there is one other.
  have hperm := List.filter_append_perm
    (fun entry : String × Document => !modifierKeys.contains entry.1) entries
  rw [hfilter] at hperm
  exact {
    all := ⟨key, args, not_modifier_of_filter hfilter, hpayload, by simpa using hperm.symm⟩
    modifiers := fun entry => List.mem_filter
    items := given_present entries "loop"
    condition := given_present entries "when"
    ignoreErrors := given_present entries "ignore_errors"
    environment := given_present entries "environment"
    timeout := given_present entries "timeout" }

/-- **A task is accepted just if it is well formed, and nothing of it is dropped.** It is a mapping with
one key that is no modifier, under which a list is given for a block and a path, or a mapping with one,
for an inclusion. What modifies loops, variables and registers has its shape, or is null or missing. The
entries of the mapping are then the modifiers of the task and what it does, and each further modifier is
there if it is given and not null. -/
theorem parse_accepts_wellFormed (index : Nat) (d : Document) :
    ((∃ t, parse index d = .ok t) ↔ ∃ entries, d = .map entries ∧ WellFormed entries) ∧
    ∀ t, parse index d = .ok t → ∃ entries, d = .map entries ∧ Keeps entries t := by
  cases d with
  | map entries =>
    constructor
    · rw [wellFormed_iff]
      simp
    · intro t h
      exact ⟨entries, rfl, keeps_of_parse h⟩
  -- Only mappings are tasks.
  | _ =>
    constructor
    · simp [parse, throw, throwThe, MonadExceptOf.throw]
    · intro t h
      cases h

end SoftwareCensus.Tasks.Definition
