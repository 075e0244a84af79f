import SoftwareCensus.Plugin.Arguments
import SoftwareCensus.Proofs.Document.Entries

/-!
# Arguments in Normal Form

The fields of a plugin are taken from its arguments one after another, and each takes its key away with
it. As no two fields have one name, a field finds what was given for it in the first place, so what is
taken for it does not depend on the others. Whatever a value is converted to has the type of the field,
and a value of that type is left alone; so what is taken again from a normal form is what is there.

## Main results

* `ArgType.convert_again` : what a value was converted to is left alone
* `ArgShape.exists_takeFields_iff` : when fields can be taken
* `ArgShape.get?_takeFields` : what is there after fields were taken
* `ArgShape.validate_normal_form` : which arguments are valid, and what their normal form is
-/

namespace SoftwareCensus

/-! ## Conversion -/

namespace ArgType

variable {field : String} {type : ArgType} {d e : Document}

/-- Whether a value has a type. -/
def Has : ArgType → Document → Prop
  | raw, _ => True
  | str, d => ∃ s, d = .str s
  | int, d => ∃ n, d = .int n
  | bool, d => ∃ b, d = .bool b
  | dict, d => ∃ fields, d = .map fields
  | list, d => ∃ items, d = .list items

/-- A value that has the type is left alone. -/
theorem convert_of_has (h : type.Has d) : type.convert field d = .ok d := by
  cases type with
  | raw => rfl
  | str | int | bool | dict | list =>
    obtain ⟨x, rfl⟩ := h
    rfl

/-- What conversions make of values of other types. -/
inductive Made : Document → Prop
  | str (s : String) : Made (.str s)
  | int (n : Int) : Made (.int n)
  | bool (b : Bool) : Made (.bool b)
  | texts (texts : List String) : Made (.ofStrings texts)

/-- What a value is converted to has the type. It is the value itself, or it was made of it. -/
theorem has_of_convert (h : type.convert field d = .ok e) : type.Has e ∧ (e = d ∨ Made e) := by
  -- One case for each type, and in it one for each kind of value that converts to it.
  cases type with
  | raw =>
    obtain rfl := Except.ok.inj h
    exact ⟨trivial, .inl rfl⟩
  | str =>
    cases d with
    | str | int | float | bool =>
      obtain rfl := Except.ok.inj h
      exact ⟨⟨_, rfl⟩, .inr (.str _)⟩
    | _ => cases h
  | int =>
    cases d with
    | int n =>
      obtain rfl := Except.ok.inj h
      exact ⟨⟨n, rfl⟩, .inl rfl⟩
    | str s =>
      simp only [convert] at h
      split at h
      · obtain rfl := Except.ok.inj h
        exact ⟨⟨_, rfl⟩, .inr (.int _)⟩
      · cases h
    | _ => cases h
  | bool =>
    cases d with
    | bool b =>
      obtain rfl := Except.ok.inj h
      exact ⟨⟨b, rfl⟩, .inl rfl⟩
    | str s =>
      simp only [convert] at h
      split at h
      · obtain rfl := Except.ok.inj h
        exact ⟨⟨_, rfl⟩, .inr (.bool _)⟩
      · cases h
    | _ => cases h
  | dict =>
    cases d with
    | map fields =>
      obtain rfl := Except.ok.inj h
      exact ⟨⟨fields, rfl⟩, .inl rfl⟩
    | _ => cases h
  | list =>
    cases d with
    | list items =>
      obtain rfl := Except.ok.inj h
      exact ⟨⟨items, rfl⟩, .inl rfl⟩
    | str s =>
      obtain rfl := Except.ok.inj h
      have hparts := Made.texts ((s.splitOn ",").map Text.trim)
      rw [Document.ofStrings, List.map_map] at hparts
      exact ⟨⟨_, rfl⟩, .inr hparts⟩
    | _ => cases h

theorem ne_null_of_convert (h : type.convert field d = .ok e) (hd : d ≠ .null) : e ≠ .null := by
  rcases (has_of_convert h).2 with rfl | hmade
  · exact hd
  · cases hmade <;> exact nofun

/-- **What a value was converted to is left alone.** -/
theorem convert_again (h : type.convert field d = .ok e) : type.convert field e = .ok e :=
  convert_of_has (has_of_convert h).1

end ArgType

/-! ## One field -/

namespace ArgField

variable {f : ArgField} {given : Fields} {v : Option Document}

/-- What is given for a field. Null is nothing. -/
def given? (f : ArgField) (given : Fields) : Option Document :=
  (given.get? f.name).filter (!·.isNull)

/-- What is taken for a field: what is given for it, converted, or else its default. -/
def take (f : ArgField) (given : Fields) : Except ArgFlaw (Option Document) :=
  match f.given? given with
  | some d => (f.type.convert f.name d).map some
  | none => if f.required then .error (.missing f.name) else .ok f.default

theorem given?_eq_some_iff {d : Document} :
    f.given? given = some d ↔ given.get? f.name = some d ∧ d ≠ .null := by
  rw [given?, Option.filter_eq_some_iff]
  refine and_congr_right fun _ => ?_
  cases d <;> simp [Document.isNull]

/-- What a field finds is its own. -/
theorem take_congr {others : Fields} (h : given.get? f.name = others.get? f.name) :
    f.take given = f.take others := by
  rw [take, take, given?, given?, h]

/-- When something can be taken for a field. -/
theorem exists_take_iff : (∃ v, f.take given = .ok v) ↔
    (f.required = true → ∃ d, f.given? given = some d) ∧
      ∀ d, f.given? given = some d → ∃ e, f.type.convert f.name d = .ok e := by
  rw [take]
  -- Nothing is given, and then only a required field fails; or something is, and then it has to
  -- convert.
  cases hgiven : f.given? given with
  | none =>
    cases hrequired : f.required with
    | true => simp
    | false => simp
  | some d =>
    dsimp only
    cases hconvert : f.type.convert f.name d with
    | ok e => simp [Except.map, hconvert]
    | error flaw => simp [Except.map, hconvert]

/-- What is taken for a field from where it was put is the same, if its default is as good as
converted. -/
theorem take_again {out : Fields} (hdefault : ∀ d ∈ f.default, f.type.convert f.name d = .ok d)
    (h : f.take given = .ok v) (hout : out.get? f.name = v) : f.take out = .ok v := by
  rw [take] at h ⊢
  cases hgiven : f.given? given with
  | some d =>
    rw [hgiven] at h
    obtain ⟨e, he, rfl⟩ := except_map_eq_ok h
    have hnull := ArgType.ne_null_of_convert he (given?_eq_some_iff.mp hgiven).2
    rw [given?_eq_some_iff.mpr ⟨hout, hnull⟩]
    exact congrArg (Except.map some) (ArgType.convert_again he)
  | none =>
    rw [hgiven] at h
    dsimp only at h
    split at h
    case isTrue => cases h
    case isFalse hrequired =>
      obtain rfl := Except.ok.inj h
      cases hfound : f.given? out with
      -- A default that is null counts as nothing, and so is taken again.
      | none => exact if_neg hrequired
      | some d =>
        -- The default is there, and it is not null.
        have hd : f.default = some d := hout.symm.trans (given?_eq_some_iff.mp hfound).1
        rw [hd]
        exact congrArg (Except.map some) (hdefault d hd)

end ArgField

/-! ## Fields one after another -/

namespace ArgShape

variable {f : ArgField} {fs : List ArgField} {given taken out : Fields}

/-- Binds a field to what was taken for it. -/
def settle (taken : Fields) (f : ArgField) : Option Document → Fields
  | some d => taken.insert f.name d
  | none => taken

theorem get?_settle (taken : Fields) (f : ArgField) (v : Option Document) (key : String) :
    (settle taken f v).get? key = if key = f.name then v.or (taken.get? f.name) else taken.get? key := by
  cases v with
  | none =>
    by_cases h : key = f.name
    · simp [settle, h]
    · simp [settle, h]
  | some d => exact Fields.get?_insert ..

theorem ascending_settle (h : taken.Ascending) (f : ArgField) (v : Option Document) :
    (settle taken f v).Ascending := by
  cases v with
  | none => exact h
  | some d => exact h.insert f.name d

/-- A field is taken with its key, and the others follow. -/
theorem takeFields_cons (given taken : Fields) (f : ArgField) (rest : List ArgField) :
    takeFields given taken (f :: rest) = (f.take given).bind fun v =>
      takeFields (given.erase f.name) (settle taken f v) rest := by
  rw [takeFields, ArgField.take, ← ArgField.given?]
  cases f.given? given with
  | some d =>
    dsimp only
    cases f.type.convert f.name d <;> rfl
  | none =>
    dsimp only
    cases f.required with
    | true => rfl
    | false => cases f.default <;> rfl

theorem name_ne_of_mem {rest : List ArgField} (h : ((f :: rest).map (·.name)).Nodup) {g : ArgField}
    (hg : g ∈ rest) : g.name ≠ f.name :=
  fun heq => (List.nodup_cons.mp h).1 (List.mem_map.mpr ⟨g, hg, heq⟩)

/-- The fields behind one find what they would have found before it. -/
theorem take_erase {rest : List ArgField} (h : ((f :: rest).map (·.name)).Nodup) {g : ArgField}
    (hg : g ∈ rest) : g.take (given.erase f.name) = g.take given :=
  ArgField.take_congr (Fields.get?_erase_ne (name_ne_of_mem h hg) given)

/-- **Fields can be taken if each of them can.** -/
theorem exists_takeFields_iff (h : (fs.map (·.name)).Nodup) (given taken : Fields) :
    (∃ out, takeFields given taken fs = .ok out) ↔ ∀ f ∈ fs, ∃ v, f.take given = .ok v := by
  induction fs generalizing given taken with
  | nil => exact iff_of_true ⟨taken, rfl⟩ nofun
  | cons f rest ih =>
    -- For the later fields it makes no difference that the first one took its key away.
    have hlater : (∀ g ∈ rest, ∃ v, g.take (given.erase f.name) = .ok v) ↔
        ∀ g ∈ rest, ∃ v, g.take given = .ok v :=
      forall₂_congr fun g hg => by rw [take_erase h hg]
    rw [takeFields_cons, List.forall_mem_cons]
    cases f.take given with
    | error flaw => simp [Except.bind]
    | ok v =>
      have hrest := ih (List.nodup_cons.mp h).2 (given.erase f.name) (settle taken f v)
      simpa [Except.bind] using hrest.trans hlater

/-- **What is there after fields were taken.** -/
theorem get?_takeFields (h : (fs.map (·.name)).Nodup) (hout : takeFields given taken fs = .ok out) :
    (taken.Ascending → out.Ascending) ∧
      (∀ f ∈ fs, ∀ v, f.take given = .ok v → out.get? f.name = v.or (taken.get? f.name)) ∧
      ∀ key, (∀ f ∈ fs, f.name ≠ key) → out.get? key = taken.get? key := by
  induction fs generalizing given taken with
  | nil =>
    obtain rfl := Except.ok.inj hout
    exact ⟨id, nofun, fun _ _ => rfl⟩
  | cons f rest ih =>
    rw [takeFields_cons] at hout
    obtain ⟨v, hv, hrest⟩ := except_bind_eq_ok hout
    obtain ⟨hascending, hfields, hothers⟩ := ih (List.nodup_cons.mp h).2 hrest
    refine ⟨fun htaken => hascending (ascending_settle htaken f v), ?_, fun key hkey => ?_⟩
    · rw [List.forall_mem_cons]
      refine ⟨fun w hw => ?_, fun g hg w hw => ?_⟩
      · -- No later field has this name, so what was bound to it stays.
        obtain rfl := Except.ok.inj (hv.symm.trans hw)
        rw [hothers f.name fun g hg => name_ne_of_mem h hg, get?_settle, if_pos rfl]
      · rw [hfields g hg w ((take_erase h hg).trans hw), get?_settle,
          if_neg (name_ne_of_mem h hg)]
    · obtain ⟨hfirst, hlater⟩ := List.forall_mem_cons.mp hkey
      rw [hothers key hlater, get?_settle, if_neg (Ne.symm hfirst)]

/-! ## Normal forms -/

/-- The entries that arguments are; nothing stands for none. -/
def entries? : Document → Option Fields
  | .null => some []
  | .map given => some given
  | _ => none

/-- Whether fields can be taken from entries: each key is the name of a field, what is required is
there, and what is there for a field converts to its type. -/
structure Acceptable (fs : List ArgField) (given : Fields) : Prop where
  known : ∀ key ∈ given.keys, ∃ f ∈ fs, f.name = key
  present : ∀ f ∈ fs, f.required = true → ∃ d, given.get? f.name = some d ∧ d ≠ .null
  convertible : ∀ f ∈ fs, ∀ d, given.get? f.name = some d → d ≠ .null →
    ∃ e, f.type.convert f.name d = .ok e

/-- What the normal form of entries has in it. -/
structure NormalForm (fs : List ArgField) (given out : Fields) : Prop where
  ascending : out.Ascending
  converted : ∀ f ∈ fs, ∀ d, given.get? f.name = some d → d ≠ .null →
    ∃ e, f.type.convert f.name d = .ok e ∧ out.get? f.name = some e
  defaulted : ∀ f ∈ fs, (∀ d, given.get? f.name = some d → d = .null) → out.get? f.name = f.default
  /-- Nothing else is in it. -/
  others : ∀ key, (∀ f ∈ fs, f.name ≠ key) → out.get? key = none

theorem acceptable_iff : Acceptable fs given ↔
    (∀ key ∈ given.keys, ∃ f ∈ fs, f.name = key) ∧ ∀ f ∈ fs, ∃ v, f.take given = .ok v := by
  simp only [ArgField.exists_take_iff, ArgField.given?_eq_some_iff, and_imp]
  exact ⟨fun h => ⟨h.known, fun f hf => ⟨h.present f hf, h.convertible f hf⟩⟩,
    fun h => ⟨h.1, fun f hf => (h.2 f hf).1, fun f hf => (h.2 f hf).2⟩⟩

theorem normalForm_of_takeFields (h : (fs.map (·.name)).Nodup)
    (hout : takeFields given [] fs = .ok out) : NormalForm fs given out := by
  obtain ⟨hascending, hfields, hothers⟩ := get?_takeFields h hout
  have htake : ∀ f ∈ fs, ∃ v, f.take given = .ok v := (exists_takeFields_iff h given []).mp ⟨out, hout⟩
  -- Nothing was taken before, so what is bound to a field is what was taken for it.
  refine ⟨hascending List.Pairwise.nil, fun f hf d hd hnull => ?_, fun f hf hnone => ?_, hothers⟩
  · have hgiven := ArgField.given?_eq_some_iff.mpr ⟨hd, hnull⟩
    obtain ⟨v, hv⟩ := htake f hf
    have hfound := hfields f hf v hv
    rw [ArgField.take, hgiven] at hv
    obtain ⟨e, he, rfl⟩ := except_map_eq_ok hv
    exact ⟨e, he, hfound⟩
  · have hgiven : f.given? given = none := by
      rw [Option.eq_none_iff_forall_ne_some]
      intro d hd
      obtain ⟨hd, hnull⟩ := ArgField.given?_eq_some_iff.mp hd
      exact hnull (hnone d hd)
    obtain ⟨v, hv⟩ := htake f hf
    have hfound := hfields f hf v hv
    rw [ArgField.take, hgiven] at hv
    dsimp only at hv
    split at hv
    · cases hv
    · obtain rfl := Except.ok.inj hv
      exact hfound.trans Option.or_none

theorem validateFields_eq_ok_iff {d : Document} : validateFields fs given = .ok d ↔
    (∀ key ∈ given.keys, ∃ f ∈ fs, f.name = key) ∧
      ∃ out, takeFields given [] fs = .ok out ∧ d = .map out := by
  have hknown : (given.keys.filter fun key => !fs.any (·.name == key)) = [] ↔
      ∀ key ∈ given.keys, ∃ f ∈ fs, f.name = key := by
    simp [List.filter_eq_nil_iff]
  rw [validateFields, ← hknown]
  -- Keys that no field has are an error before any field is taken.
  split
  case h_1 hnone =>
    rw [and_iff_right hnone]
    constructor
    · intro h
      obtain ⟨out, hout, rfl⟩ := except_map_eq_ok h
      exact ⟨out, hout, rfl⟩
    · rintro ⟨out, hout, rfl⟩
      rw [hout]
      rfl
  case h_2 hsome =>
    refine iff_of_false nofun fun h => ?_
    exact hsome h.1

theorem validate_eq_ok_iff {args d : Document} : (fields fs).validate args = .ok d ↔
    ∃ given, entries? args = some given ∧ validateFields fs given = .ok d := by
  cases args with
  | null | map => simp [validate, entries?]
  | _ => simp [validate, entries?]

/-- A normal form is valid, and it is its own normal form. -/
theorem validateFields_again (h : (fs.map (·.name)).Nodup)
    (hdefaults : ∀ f ∈ fs, ∀ d ∈ f.default, f.type.convert f.name d = .ok d)
    (hout : takeFields given [] fs = .ok out) : validateFields fs out = .ok (.map out) := by
  obtain ⟨hascending, hfields, hothers⟩ := get?_takeFields h hout
  have htake : ∀ f ∈ fs, ∃ v, f.take given = .ok v ∧ f.take out = .ok v ∧ out.get? f.name = v := by
    intro f hf
    obtain ⟨v, hv⟩ := (exists_takeFields_iff h given []).mp ⟨out, hout⟩ f hf
    have hfound : out.get? f.name = v := (hfields f hf v hv).trans Option.or_none
    exact ⟨v, hv, ArgField.take_again (hdefaults f hf) hv hfound, hfound⟩
  obtain ⟨again, hagain⟩ := (exists_takeFields_iff h out []).mpr fun f hf =>
    let ⟨v, _, hv, _⟩ := htake f hf
    ⟨v, hv⟩
  obtain ⟨hascending', hfields', hothers'⟩ := get?_takeFields h hagain
  -- Both are in order, and have the same bindings: those of the fields, and no others.
  have hsame : again = out := by
    refine (hascending' List.Pairwise.nil).ext (hascending List.Pairwise.nil) fun key => ?_
    by_cases hkey : ∃ f ∈ fs, f.name = key
    · obtain ⟨f, hf, rfl⟩ := hkey
      obtain ⟨v, -, hv, hfound⟩ := htake f hf
      rw [hfields' f hf v hv, hfound]
      exact Option.or_none
    · have hkey : ∀ f ∈ fs, f.name ≠ key := fun f hf heq => hkey ⟨f, hf, heq⟩
      rw [hothers' key hkey, hothers key hkey]
  -- What is left is that no key is unknown: one that is bound is the name of a field.
  refine validateFields_eq_ok_iff.mpr ⟨fun key hkey => ?_, again, hagain, by rw [hsame]⟩
  by_contra hnone
  obtain ⟨d, hd⟩ := Fields.mem_keys_iff.mp hkey
  have hunbound := hothers key fun f hf heq => hnone ⟨f, hf, heq⟩
  cases hd.symm.trans hunbound

/-- **The normal form of arguments.** Arguments are valid exactly if they are nothing or a mapping
without unknown keys in which every required field is there and every value that is not null converts to
its type. The normal form has these values as they are converted, the defaults of the fields that are
missing or null, and nothing else; and it is its own normal form. -/
theorem validate_normal_form (hnames : (fs.map (·.name)).Nodup)
    (hdefaults : ∀ f ∈ fs, ∀ d ∈ f.default, f.type.convert f.name d = .ok d) (args : Document) :
    ((∃ d, (fields fs).validate args = .ok d) ↔
      ∃ given, entries? args = some given ∧ Acceptable fs given) ∧
    ∀ d, (fields fs).validate args = .ok d →
      (∃ given out, entries? args = some given ∧ d = .map out ∧ NormalForm fs given out) ∧
        (fields fs).validate d = .ok d := by
  simp only [validate_eq_ok_iff, validateFields_eq_ok_iff, acceptable_iff]
  constructor
  · constructor
    · rintro ⟨_, given, hgiven, hknown, out, hout, rfl⟩
      exact ⟨given, hgiven, hknown, (exists_takeFields_iff hnames given []).mp ⟨out, hout⟩⟩
    · rintro ⟨given, hgiven, hknown, htake⟩
      obtain ⟨out, hout⟩ := (exists_takeFields_iff hnames given []).mpr htake
      exact ⟨.map out, given, hgiven, hknown, out, hout, rfl⟩
  · rintro _ ⟨given, hgiven, -, out, hout, rfl⟩
    refine ⟨⟨given, out, hgiven, rfl, normalForm_of_takeFields hnames hout⟩, out, rfl, ?_⟩
    exact validateFields_eq_ok_iff.mp (validateFields_again hnames hdefaults hout)

/-- A service with arguments of several types. -/
private def service : List ArgField :=
  [{ name := "name", type := .str, required := true }, { name := "port", type := .int },
    { name := "class", type := .str, default := some (.str "service") },
    { name := "tags", type := .list }, { name := "enabled", type := .bool }]

/-- What is given for it, in other types, and nothing for one field. -/
private def loose : Document :=
  .map [("enabled", .str " Yes"), ("name", .int 5), ("port", .str "+0080 "), ("tags", .null)]

private def strict : Document :=
  .map [("class", .str "service"), ("enabled", .bool true), ("name", .str "5"), ("port", .int 80)]

private theorem validate_loose : (fields service).validate loose = .ok strict := by
  with_unfolding_all rfl

theorem validate_normal_form_service :
    (service.map (·.name)).Nodup ∧
      (∀ f ∈ service, ∀ d ∈ f.default, f.type.convert f.name d = .ok d) ∧
      (fields service).validate loose = .ok strict ∧
      (∃ given out, entries? loose = some given ∧ strict = .map out ∧
        NormalForm service given out) ∧
      (fields service).validate strict = .ok strict := by
  have hnames : (service.map (·.name)).Nodup := by decide
  have hdefaults : ∀ f ∈ service, ∀ d ∈ f.default, f.type.convert f.name d = .ok d := by
    simp [service, ArgType.convert]
  exact ⟨hnames, hdefaults, validate_loose,
    (validate_normal_form hnames hdefaults loose).2 strict validate_loose⟩

end ArgShape

end SoftwareCensus
