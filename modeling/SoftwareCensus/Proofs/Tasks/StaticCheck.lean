import SoftwareCensus.Proofs.Document.Ordered
import SoftwareCensus.Proofs.Plugin.Refusals
import SoftwareCensus.Proofs.Tasks.Pairing
import SoftwareCensus.Proofs.Tasks.Reading
import SoftwareCensus.Tasks.Check

/-!
# What a Check Foresees

A check goes through a list of tasks without running them. What it looks at is what a run works
with: the same tasks are read at the same places, and a document without templates is rendered to
itself, in every scope of variables. So of the errors that can be told from a task list there remain
those that only the value of a template brings about.

## Main results

* `Accepted.entry` : a list that a check accepts has tasks that are checked, and so have its blocks
* `error_of_checked` : a task that is checked fails with what cannot be told from it, or with what
  is due to a template in it
* `relates_accepted` : so does a run of a list that a check accepts
-/

namespace SoftwareCensus.Tasks

open Run Interpreter

/-! ## Lists that a check accepts -/

/-- A task of a list, or of a block in it at any depth. -/
inductive Within (t : Definition) : List Document → Prop where
  | here {tasks : List Document} {index : Nat} {d : Document} (entry : tasks[index]? = some d)
      (read : Definition.parse index d = .ok t) : Within t tasks
  | inside {tasks inner : List Document} {index : Nat} {d : Document} {outer : Definition}
      (entry : tasks[index]? = some d) (read : Definition.parse index d = .ok outer)
      (block : outer.payload = .block inner) (within : Within t inner) : Within t tasks

/-- What a check sees of a task: the plugin is there, and takes the arguments unless they have
templates; and what the task registers has a name, unless that is a template. -/
structure Checked (registry : Registry) (t : Definition) : Prop where
  plugin : ∀ {name args}, t.payload = .plugin name args → ∃ p, registry.get? name = some p ∧
    (args.hasTemplate = true ∨ ∃ valid, p.validate args = .ok valid)
  register : ∀ {raw}, t.register = some raw →
    Template.isTemplate raw = true ∨ isIdentifier raw = true

/-- Whether a check accepts a list of tasks. -/
def Accepted (registry : Registry) (tasks : List Document) : Prop :=
  ∃ levels, checkWithin registry levels tasks = .ok ()

section Check

variable {registry : Registry} {tasks : List Document} {t : Definition}

theorem checked_of_check {inner : List Document → Except Error Unit}
    (hpayload : checkPayload registry inner t = .ok ())
    (hregister : checkRegister t.register = .ok ()) :
    Checked registry t where
  plugin {name args} ht := by
    rw [checkPayload, ht] at hpayload
    cases hget : registry.get? name with
    | none =>
      simp only [hget] at hpayload
      cases hpayload
    | some p =>
      simp only [hget, checkArgs] at hpayload
      refine ⟨p, rfl, ?_⟩
      -- Arguments with templates are left to the run.
      split at hpayload
      next htemplate => exact .inl htemplate
      next =>
        cases hvalid : p.validate args with
        | ok valid => exact .inr ⟨valid, rfl⟩
        | error e =>
          rw [hvalid] at hpayload
          cases hpayload
  register {raw} ht := by
    rw [ht, checkRegister] at hregister
    split at hregister
    next h => exact Bool.or_eq_true_iff.mp h
    next => cases hregister

theorem checkFrom_eq_ok {inner : List Document → Except Error Unit} {index k : Nat} {d : Document}
    (h : checkFrom registry inner index tasks = .ok ()) (hd : tasks[k]? = some d) :
    ∃ t, Definition.parse (index + k) d = .ok t ∧ checkPayload registry inner t = .ok () ∧
      checkRegister t.register = .ok () := by
  induction tasks generalizing index k with
  | nil => simp at hd
  | cons first rest ih =>
    obtain ⟨t, ht, h⟩ := except_bind_eq_ok h
    obtain ⟨_, hpayload, h⟩ := except_bind_eq_ok h
    obtain ⟨_, hregister, hrest⟩ := except_bind_eq_ok h
    cases k with
    | zero =>
      obtain rfl : first = d := by simpa using hd
      exact ⟨t, ht, hpayload, hregister⟩
    | succ k =>
      have hlater := ih hrest (k := k) (by simpa using hd)
      rwa [Nat.add_assoc, Nat.add_comm 1 k] at hlater

/-- **A list that a check accepts has tasks that are checked**, and the lists inside it are
accepted. -/
theorem Accepted.entry (h : Accepted registry tasks) {index : Nat} {d : Document}
    (hd : tasks[index]? = some d) :
    ∃ t, Definition.parse index d = .ok t ∧ Checked registry t ∧
      ∀ {inner}, t.payload = .block inner → Accepted registry inner := by
  obtain ⟨levels, h⟩ := h
  cases levels with
  | zero => cases h
  | succ levels =>
    obtain ⟨t, ht, hpayload, hregister⟩ := checkFrom_eq_ok h hd
    rw [Nat.zero_add] at ht
    refine ⟨t, ht, checked_of_check hpayload hregister, fun {inner} hblock => ⟨levels, ?_⟩⟩
    rw [checkPayload, hblock] at hpayload
    exact hpayload

/-- What is in an ordered list is ordered: the arguments of plugins and the lists of blocks. -/
theorem ordered_payload {index : Nat} {d : Document} (hd : d.Ordered)
    (ht : Definition.parse index d = .ok t) :
    (∀ {name args}, t.payload = .plugin name args → args.Ordered) ∧
      ∀ {inner}, t.payload = .block inner → Document.AllOrdered inner := by
  obtain ⟨entries, label, key, args, rfl, hentry, hpayload⟩ := Definition.parse_eq_ok ht
  have hargs : args.Ordered := Document.valuesOrdered_iff.mp hd.2 (key, args) hentry
  rcases Definition.payloadOf_cases hpayload with hkind | ⟨tasks, rfl, hkind⟩ | ⟨file, hkind⟩
  · refine ⟨fun hplugin => ?_, fun hblock => ?_⟩
    · cases hkind.symm.trans hplugin
      exact hargs
    · cases hkind.symm.trans hblock
  · refine ⟨fun hplugin => ?_, fun hblock => ?_⟩
    · cases hkind.symm.trans hplugin
    · cases hkind.symm.trans hblock
      exact hargs
  · refine ⟨fun hplugin => ?_, fun hblock => ?_⟩
    · cases hkind.symm.trans hplugin
    · cases hkind.symm.trans hblock

theorem Within.checked (h : Within t tasks) (haccepted : Accepted registry tasks)
    (hordered : Document.AllOrdered tasks) :
    Checked registry t ∧ ∀ {name args}, t.payload = .plugin name args → args.Ordered := by
  induction h with
  | here hd ht =>
    obtain ⟨t', ht', hchecked, -⟩ := haccepted.entry hd
    cases ht'.symm.trans ht
    have hdocument := Document.allOrdered_iff.mp hordered _ (List.mem_of_getElem? hd)
    exact ⟨hchecked, (ordered_payload hdocument ht).1⟩
  | inside hd ht hblock _ ih =>
    obtain ⟨t', ht', -, hblocks⟩ := haccepted.entry hd
    cases ht'.symm.trans ht
    have hdocument := Document.allOrdered_iff.mp hordered _ (List.mem_of_getElem? hd)
    exact ih (hblocks hblock) ((ordered_payload hdocument ht).2 hblock)

end Check

/-! ## Foreseen errors -/

/-- What only the values of the templates of a task bring about: its arguments or the name that it
registers are refused when they are rendered. -/
inductive DueTo (registry : Registry) (t : Definition) : Error → Prop where
  | args {name plugin : String} {args : Document} {p : Plugin} {s : Session} {flaw : ArgFlaw}
      (payload : t.payload = .plugin name args) (template : args.hasTemplate = true)
      (lookup : registry.get? name = some p)
      (refused : (argsOf t.label p args s).1 = .error (.invalidArgs plugin flaw)) :
      DueTo registry t (.invalidArgs plugin flaw)
  | register {raw name : String} {s : Session} (register : t.register = some raw)
      (template : Template.isTemplate raw = true)
      (refused : (registerNameOf t s).1 = .error (.invalidRegister name)) :
      DueTo registry t (.invalidRegister name)

/-- What can go wrong with lists of tasks that a check accepts: what cannot be told from the lists,
and what is due to a task in them. -/
def Foreseen (registry : Registry) (lists : List (List Document)) (why : Error) : Prop :=
  why.isStatic = false ∨ ∃ tasks ∈ lists, ∃ t, Within t tasks ∧ DueTo registry t why

/-- A run beside itself, of which all errors are tolerated; so are all that it notes, but for what
was noted before. -/
def tolerating (P : Error → Prop) (dynamic : ∀ e, e.isStatic = false → P e) (before : List Event) :
    Pairing where
  alike s s' := s = s' ∧ ∀ why, .failed why ∈ s.journal → .failed why ∈ before ∨ P why
  errors e e' := e = e' ∧ P e
  context_eq h := congrArg Session.context h.1
  changed change h := ⟨congrArg (·.changed change) h.1, h.2⟩
  noted := fun {_ _ event} hevent h => by
    refine ⟨congrArg (·.noted event) h.1, fun why hwhy => ?_⟩
    rcases List.mem_cons.mp hwhy with rfl | hwhy
    · cases hevent
    · exact h.2 why hwhy
  failed := fun {_ _ e _} he h => by
    obtain ⟨rfl, htolerated⟩ := he
    refine ⟨congrArg (·.noted (.failed e)) h.1, fun why hwhy => ?_⟩
    rcases List.mem_cons.mp hwhy with hsame | hwhy
    · cases hsame
      exact .inr htolerated
    · exact h.2 why hwhy
  ignorable h _ := h.1
  dynamic h := ⟨rfl, dynamic _ h⟩

section Foreseen

variable {i : Interpreter} {lists : List (List Document)} {tasks root : List Document} {t : Definition}

/-- Arguments without templates are those that were checked. -/
theorem argsOf_of_not_hasTemplate {label : String} {p : Plugin} {args valid : Document}
    (hordered : args.Ordered) (htemplate : args.hasTemplate = false)
    (hvalid : p.validate args = .ok valid) (s : Session) : (argsOf label p args s).1 = .ok valid := by
  have hrender : render label args s = (.ok args, s) := by
    rw [render_apply, Template.render_of_not_hasTemplate _ args hordered htemplate]
  have hchecked : ((liftM ((p.validate args).mapError (Error.ofPlugin label)) : Run Document) s).1 =
      .ok valid := by
    rw [hvalid]
    rfl
  rw [argsOf]
  -- Rendered first or not, it is this document that the plugin is asked about.
  split
  · rw [bind_apply, hrender]
    exact hchecked
  · exact hchecked

/-- A name without a template is the one that was checked. -/
theorem registerNameOf_of_not_isTemplate {raw name : String} {s : Session}
    (hregister : t.register = some raw) (htemplate : Template.isTemplate raw = false)
    (hname : isIdentifier raw = true) : (registerNameOf t s).1 ≠ .error (.invalidRegister name) := by
  have hrender : render t.label (.str raw) s = (.ok (.str raw), s) := by
    rw [render_apply, Template.render, Template.renderText_of_not_isTemplate _ htemplate]
  rw [registerNameOf, hregister]
  dsimp only
  split
  · intro h
    cases h
  · rw [bind_apply, hrender]
    show ((if isIdentifier raw = true then pure (some raw) else throw (Error.invalidRegister raw) :
      Run (Option String)) s).1 ≠ _
    rw [if_pos hname]
    intro h
    cases h

/-- **The errors of a task that is checked are due to it**, or cannot be told from it. -/
theorem admits_of_checked {P : Error → Prop} (dynamic : ∀ e, e.isStatic = false → P e)
    (hdue : ∀ e, DueTo i.registry t e → P e) (before : List Event)
    (hplugins : ∀ p ∈ i.registry.plugins, p.LeavesChecks) (hchecked : Checked i.registry t)
    (hordered : ∀ {name args}, t.payload = .plugin name args → args.Ordered) :
    (tolerating P dynamic before).Admits i t where
  lookup {name args} ht hget := by
    obtain ⟨p, hp, -⟩ := hchecked.plugin ht
    cases hp.symm.trans hget
  args {name args q s e} ht hget he := by
    refine ⟨rfl, ?_⟩
    rcases (consults_argsOf t.label q args).raises he with hdynamic | ⟨flaw, rfl⟩
    · exact dynamic e hdynamic
    · -- The arguments were refused, so they are not those that the check saw.
      have htemplate : args.hasTemplate = true := by
        by_contra hnone
        rw [Bool.not_eq_true] at hnone
        obtain ⟨p, hp, hargs⟩ := hchecked.plugin ht
        obtain rfl : p = q := Option.some.inj (hp.symm.trans hget)
        rcases hargs with hargs | ⟨valid, hvalid⟩
        · exact Bool.false_ne_true (hnone.symm.trans hargs)
        · rw [argsOf_of_not_hasTemplate (hordered ht) hnone hvalid s] at he
          cases he
      exact hdue _ (.args ht htemplate hget he)
  result {name args q call e facts} ht hget hrun := by
    refine ⟨rfl, dynamic _ ?_⟩
    -- Of what a plugin ends with, only refused arguments could have been told before.
    cases e with
    | invalidArgs plugin flaw =>
      exact absurd hrun (hplugins q (List.mem_of_find?_eq_some hget) call plugin flaw facts)
    | _ => rfl
  register {s e} he := by
    refine ⟨rfl, ?_⟩
    cases hplugin : t.payload.isPlugin with
    | false =>
      rw [registerNameOf_of_not_plugin hplugin] at he
      cases he
    | true =>
      rcases (consults_registerNameOf hplugin).raises he with hdynamic | ⟨name, rfl⟩
      · exact dynamic e hdynamic
      · cases hregister : t.register with
        | none =>
          rw [registerNameOf, hregister] at he
          cases he
        | some raw =>
          -- A name without a template is the one that the check accepted.
          have htemplate : Template.isTemplate raw = true := by
            by_contra hnone
            have hname := (hchecked.register hregister).resolve_left hnone
            exact registerNameOf_of_not_isTemplate hregister (Bool.not_eq_true _ ▸ hnone) hname he
          exact hdue _ (.register hregister htemplate he)

/-- A task that calls a plugin fails with what is due to it, or with what cannot be told from it. -/
theorem error_of_checked (hplugins : ∀ p ∈ i.registry.plugins, p.LeavesChecks)
    (hchecked : Checked i.registry t) (hplugin : t.payload.isPlugin = true)
    (hordered : ∀ {name args}, t.payload = .plugin name args → args.Ordered)
    {inner : List Document → Run Unit} {s : Session} {why : Error}
    (h : (i.runTask inner t s).1 = .error why) :
    why.isStatic = false ∨ DueTo i.registry t why := by
  let P : Error → Prop := fun e => e.isStatic = false ∨ DueTo i.registry t e
  have hadmits : (tolerating P (fun _ => .inl) s.journal).Admits i t :=
    admits_of_checked _ (fun _ => .inr) s.journal hplugins hchecked hordered
  -- There are no lists in the task, so it does not matter what runs them.
  have hinside : (tolerating P (fun _ => .inl) s.journal).Inside False inner inner t t := by
    refine .self (fun hblock => ?_) fun hinclusion => ?_
    · rw [hblock] at hplugin
      cases hplugin
    · rw [hinclusion] at hplugin
      cases hplugin
  have hends := Pairing.Relates.runTask hadmits hinside s s ⟨rfl, fun _ h => .inl h⟩
  obtain ⟨houtcome, -⟩ := hends.resolve_left fun hcut => hcut.1
  rw [h] at houtcome
  cases houtcome with
  | error he => exact he.2

/-- **The errors of a run of a list that a check accepts are foreseen**, at any number of levels.
The list is one of `root`, or stands in a block there. -/
theorem relates_accepted (hplugins : ∀ p ∈ i.registry.plugins, p.LeavesChecks) (hroot : root ∈ lists)
    (hclosed : ∀ t file, Within t root → t.payload ≠ .inclusion file) (levels : Nat)
    (haccepted : Accepted i.registry tasks) (hordered : Document.AllOrdered tasks)
    (hwithin : ∀ t, Within t tasks → Within t root) :
    (tolerating (Foreseen i.registry lists) (fun _ => .inl) []).Relates False
      (i.runTasks levels tasks) (i.runTasks levels tasks) := by
  induction levels generalizing tasks with
  | zero => exact .throw ⟨rfl, .inl rfl⟩
  | succ levels ih =>
    show Pairing.Relates _ False (i.runFrom (i.runTasks levels) 0 tasks)
      (i.runFrom (i.runTasks levels) 0 tasks)
    refine Pairing.Relates.runFrom fun {k d} hd => ?_
    rw [Nat.zero_add]
    -- The run reads at its place the task that the check read there.
    obtain ⟨t, ht, hchecked, hblocks⟩ := haccepted.entry hd
    have hdocument : d.Ordered := Document.allOrdered_iff.mp hordered d (List.mem_of_getElem? hd)
    obtain ⟨hargs, hlists⟩ := ordered_payload hdocument ht
    have ht' : Within t root := hwithin t (.here hd ht)
    have hadmits : (tolerating (Foreseen i.registry lists) (fun _ => .inl) []).Admits i t :=
      admits_of_checked _ (fun e hdue => .inr ⟨root, hroot, t, ht', hdue⟩) [] hplugins hchecked hargs
    refine Pairing.Relates.runEntry (.inr ⟨t, t, ht, ht, hadmits, .self ?_ ?_⟩)
    · intro inner hblock
      exact ih (hblocks hblock) (hlists hblock) fun t' h => hwithin t' (.inside hd ht hblock h)
    · intro file hinclusion
      exact absurd hinclusion (hclosed t file ht')

end Foreseen

end SoftwareCensus.Tasks
