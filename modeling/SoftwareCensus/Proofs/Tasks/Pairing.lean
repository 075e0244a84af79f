import SoftwareCensus.Proofs.Tasks.PluginCalls

/-!
# Runs Side by Side

Two runs are compared step by step. A pairing says which sessions count as alike and which errors
may stand for each other; alike sessions have equal contexts, so the two runs take the same
decisions, and what they change and note they change and note alike. The lists inside a task may be
run by different functions, or be different lists: if these are alike, the task is.

One of two runs may be cut off because its lists are too deep. What it would have done is not
compared, and such a run ends with the error that says so, since no task can ignore or replace it.

## Main results

* `Pairing.Relates.bind` : steps that are alike are alike one after the other
* `Pairing.Relates.runTask` : a task is alike in two runs if the lists inside it are
* `Pairing.Relates.runEntry` : the same of a task that is read first
-/

namespace SoftwareCensus.Tasks

open Run Interpreter

/-- Whether an event is a failure. -/
def Event.isFailure : Event → Bool
  | .failed _ => true
  | _ => false

namespace Interpreter

variable (i : Interpreter) (inner : List Document → Run Unit) (t : Definition)

/-- Runs a task of which it is known what it does. -/
def runAction (action : Action) : Run Unit := do
  let ignore ← ignoresErrors t
  let items ← itemsOf t
  let (reports, e) ← runItems (i.runItem inner t action ignore) 0 items
  conclude t reports e

/-- A task looks up what it does, and then does it. -/
theorem runTask_eq :
    i.runTask inner t = (do let action ← i.actionOf t.payload; i.runAction inner t action) := rfl

/-- A task that runs lists runs others in the same way. -/
theorem runAction_block {tasks : List Document} (h : t.payload = .block tasks)
    (others : List Document) (action : Action) :
    i.runAction inner { t with payload := .block others } action = i.runAction inner t action := by
  obtain ⟨name, payload⟩ := t
  -- Nothing but `action` says which lists are run.
  obtain rfl : payload = .block tasks := h
  rfl

variable {t}

/-- For a task that calls a plugin, finding the name to register changes nothing. -/
theorem consults_registerNameOf (h : t.payload.isPlugin = true) :
    Consults (fun e => e.isStatic = false ∨ ∃ name, e = .invalidRegister name)
      (registerNameOf t) := by
  rw [registerNameOf]
  split
  · exact .pure _
  · simp only [h, Bool.not_true, Bool.false_eq_true, if_false]
    refine ((consults_render _ _).mono fun _ => .inl).bind fun d => ?_
    -- The rendered name is an identifier, or it is refused.
    split
    · exact .pure _
    · exact .throw (.inr ⟨_, rfl⟩)

/-- A task that calls no plugin has nothing to register. -/
theorem registerNameOf_of_not_plugin (h : t.payload.isPlugin = false) (s : Session) :
    registerNameOf t s = (.ok none,
      if t.register.isSome then s.noted (.registerIgnored t.label) else s) := by
  rw [registerNameOf]
  cases t.register with
  | none => rfl
  -- The name is not even rendered, only a note says that it was left out.
  | some raw =>
    simp only [h, Bool.not_false, if_true]
    rfl

/-- So it ends as its items do. -/
theorem conclude_of_not_plugin (h : t.payload.isPlugin = false) (reports : List Fields)
    (e : Option Error) (s : Session) :
    conclude t reports e s = (e.elim (.ok ()) .error,
      if t.register.isSome then s.noted (.registerIgnored t.label) else s) := by
  rw [conclude_apply, registerNameOf_of_not_plugin h]

end Interpreter

/-- How two runs are compared. -/
structure Pairing where
  /-- Which sessions count as alike. -/
  alike : Session → Session → Prop
  /-- Which errors may stand for each other. -/
  errors : Error → Error → Prop
  context_eq : ∀ {s s' : Session}, alike s s' → s.context = s'.context
  changed : ∀ {s s' : Session} (change : Context → Context), alike s s' →
    alike (s.changed change) (s'.changed change)
  noted : ∀ {s s' : Session} {event : Event}, event.isFailure = false → alike s s' →
    alike (s.noted event) (s'.noted event)
  failed : ∀ {s s' : Session} {e e' : Error}, errors e e' → alike s s' →
    alike (s.noted (.failed e)) (s'.noted (.failed e'))
  /-- What may be ignored ends up in events, so it has to be the same. -/
  ignorable : ∀ {e e' : Error}, errors e e' → e.isIgnorable = true ∨ e'.isIgnorable = true → e = e'
  dynamic : ∀ {e : Error}, e.isStatic = false → errors e e

namespace Pairing

variable (p : Pairing) {α β : Type}

/-- The same value, or errors that may stand for each other. -/
inductive SameOutcome : Except Error α → Except Error α → Prop where
  | ok (x : α) : SameOutcome (.ok x) (.ok x)
  | error {e e' : Error} (alike : p.errors e e') : SameOutcome (.error e) (.error e')

/-- Two steps end alike. -/
structure SameEnd (result result' : Except Error α × Session) : Prop where
  outcome : p.SameOutcome result.1 result'.1
  alike : p.alike result.2 result'.2

/-- Two steps end alike whenever they begin alike, unless the first one is cut off. -/
def Relates (cut : Prop) (act act' : Run α) : Prop :=
  ∀ s s' : Session, p.alike s s' →
    (cut ∧ (act s).1 = .error .endless) ∨ p.SameEnd (act s) (act' s')

/-- The pairing in which errors have to be equal. -/
def strict : Pairing where
  alike := p.alike
  errors e e' := e = e' ∧ p.errors e e
  context_eq := p.context_eq
  changed := p.changed
  noted := p.noted
  failed := fun ⟨heq, hself⟩ h => heq ▸ p.failed hself h
  ignorable := fun ⟨heq, _⟩ _ => heq
  dynamic := fun h => ⟨rfl, p.dynamic h⟩

/-! ## Steps -/

namespace Relates

variable {p} {cut : Prop} {act act' : Run α}

/-- Equal errors stand for each other if they may do so. -/
theorem of_strict (h : p.strict.Relates False act act') : p.Relates cut act act' := by
  intro s s' halike
  rcases h s s' halike with ⟨hcut, -⟩ | ⟨houtcome, hafter⟩
  · exact hcut.elim
  · refine .inr ⟨?_, hafter⟩
    -- The outcomes are equal, and an error may stand for itself.
    generalize (act s).1 = outcome, (act' s').1 = outcome' at houtcome
    cases houtcome with
    | ok x => exact .ok x
    | error hsame => exact .error (hsame.1 ▸ hsame.2)

/-- Both runs come to the same result and do nothing else. -/
theorem pure (x : α) : p.Relates cut (Pure.pure x : Run α) (Pure.pure x) :=
  fun _ _ h => .inr ⟨.ok x, h⟩

/-- Errors that may stand for each other end both runs alike. -/
theorem throw {e e' : Error} (h : p.errors e e') :
    p.Relates cut (MonadExcept.throw e : Run α) (MonadExcept.throw e') :=
  fun _ _ halike => .inr ⟨.error h, halike⟩

/-- **Steps that are alike are alike one after the other.** -/
theorem bind {next next' : α → Run β} (hact : p.Relates cut act act')
    (hnext : ∀ x, p.Relates cut (next x) (next' x)) :
    p.Relates cut (act >>= next) (act' >>= next') := by
  intro s s' halike
  have hfirst := hact s s' halike
  rw [bind_apply, bind_apply]
  generalize act s = result, act' s' = result' at hfirst
  obtain ⟨outcome, mid⟩ := result
  obtain ⟨outcome', mid'⟩ := result'
  -- The first step was cut off, and then the sequence is.
  rcases hfirst with ⟨hcut, hends⟩ | ⟨houtcome, hmid⟩
  · obtain rfl : outcome = .error .endless := hends
    exact .inl ⟨hcut, rfl⟩
  · cases houtcome with
    | ok x => exact hnext x mid mid' hmid
    | error herrors =>
      -- The second step is not reached in either run.
      exact .inr ⟨.error herrors, hmid⟩

/-- Results that are alike stay alike when they are changed in the same way. -/
theorem map (hact : p.Relates cut act act') (f : α → β) :
    p.Relates cut (f <$> act) (f <$> act') := by
  rw [map_eq_pure_bind, map_eq_pure_bind]
  exact hact.bind fun x => pure (f x)

/-- The context is the same in both runs. -/
theorem bindContext {next next' : Context → Run α}
    (hnext : ∀ c, p.Relates cut (next c) (next' c)) :
    p.Relates cut (context >>= next) (context >>= next') := by
  intro s s' halike
  rw [bind_apply, bind_apply, context_apply, context_apply, ← p.context_eq halike]
  exact hnext s.context s s' halike

/-- What only consults the context comes to the same in both runs. -/
theorem consults {raises : Error → Prop} (hact : Consults raises act)
    (hraises : ∀ e, raises e → p.errors e e) : p.Relates cut act act := by
  intro s s' halike
  refine .inr ⟨?_, ?_⟩
  -- Equal contexts make for equal outcomes, and an error of this kind may stand for itself.
  · rw [← hact.congr (p.context_eq halike)]
    cases houtcome : (act s).1 with
    | ok x => exact .ok x
    | error e => exact .error (hraises e (hact.raises houtcome))
  -- Neither session has changed.
  · rw [hact.readsOnly s, hact.readsOnly s']
    exact halike

/-- Both runs note the same event, which is no failure. -/
theorem note {event : Event} (h : event.isFailure = false) :
    p.Relates cut (Run.note event) (Run.note event) :=
  fun _ _ halike => .inr ⟨.ok (), p.noted h halike⟩

/-- Both runs change their contexts in the same way. -/
theorem change (f : Context → Context) : p.Relates cut (Run.change f) (Run.change f) :=
  fun _ _ halike => .inr ⟨.ok (), p.changed f halike⟩

/-- What both runs enter before a step and leave after it keeps the step alike. -/
theorem within (enter leave : Context → Context) (hact : p.Relates cut act act') :
    p.Relates cut (Run.within enter leave act) (Run.within enter leave act') := by
  intro s s' halike
  rcases hact _ _ (p.changed enter halike) with hcut | ⟨houtcome, hafter⟩
  -- Also a run that is cut off leaves what it has entered.
  · exact .inl hcut
  · exact .inr ⟨houtcome, p.changed leave hafter⟩

/-- A binding takes back the value that was there before, which is the same in both runs. -/
theorem withBinding (name : String) (d : Document) (hact : p.Relates cut act act') :
    p.Relates cut (Run.withBinding name d act) (Run.withBinding name d act') :=
  bindContext fun _ => hact.within _ _

/-- The same of several bindings, one inside the other. -/
theorem withBindings (bindings : List (String × Document)) (hact : p.Relates cut act act') :
    p.Relates cut (Run.withBindings act bindings) (Run.withBindings act' bindings) := by
  -- By induction on the bindings, the outermost first.
  induction bindings with
  | nil => exact hact
  | cons entry rest ih => exact ih.withBinding entry.1 entry.2

/-- A layer is pushed and popped in both runs. -/
theorem withEnvironment (layer : Option Fields) (hact : p.Relates cut act act') :
    p.Relates cut (Run.withEnvironment layer act) (Run.withEnvironment layer act') := by
  cases layer with
  | none => exact hact
  | some layer => exact hact.within _ _

/-- Errors that may stand for each other may be noted for each other. -/
theorem noteFailure (hact : p.Relates cut act act') :
    p.Relates cut (Run.noteFailure act) (Run.noteFailure act') := by
  intro s s' halike
  have hbefore := hact s s' halike
  unfold Run.noteFailure
  generalize act s = result, act' s' = result' at hbefore
  obtain ⟨outcome, mid⟩ := result
  obtain ⟨outcome', mid'⟩ := result'
  rcases hbefore with ⟨hcut, hends⟩ | ⟨houtcome, hmid⟩
  -- The error that says that a run was cut off is noted like any other.
  · obtain rfl : outcome = .error .endless := hends
    exact .inl ⟨hcut, rfl⟩
  · cases houtcome with
    | ok x => exact .inr ⟨.ok x, hmid⟩
    | error herrors => exact .inr ⟨.error herrors, p.failed herrors hmid⟩

end Relates

/-! ## Plugins and files -/

section Interpreter

variable {p} {cut : Prop} {i : Interpreter} {t : Definition}

namespace Relates

/-- Both runs hand back equal results, so they merge the same facts. -/
theorem adopt (label : String) (result : Document) :
    p.Relates cut (adopt label result) (adopt label result) := by
  -- The policy is read from the result alone.
  have hpolicy : ∀ fields, Consults (·.isStatic = false)
      (liftM (policyOf label fields) : Run ListMerge) := by
    refine fun fields => .lift fun e h => ?_
    obtain ⟨-, why, rfl⟩ := policyOf_eq_error h
    rfl
  unfold Interpreter.adopt
  split
  · refine (consults (hpolicy _) fun _ => p.dynamic).bind fun policy => ?_
    -- No facts, null, a mapping to merge, or something that is no mapping.
    split
    · exact pure _
    · exact pure _
    · exact (change _).bind fun _ => pure _
    · exact (throw (p.dynamic rfl)).bind fun _ => pure _
  · exact pure _

/-- A plugin that has ended in the same way in both runs is settled alike. -/
theorem settle {q : Plugin} (limit : Option Nat) {ending : Plugin.Ending}
    (hresult : ∀ {e facts}, ending = .finished (.error e) facts →
      p.errors (.ofPlugin t.label e) (.ofPlugin t.label e)) :
    p.Relates cut (settle t q limit ending) (settle t q limit ending) := by
  cases ending with
  | finished result facts =>
    cases result with
    | ok result => exact (change _).bind fun _ => adopt _ _
    | error e => exact throw (hresult rfl)
  | crashed => exact throw (p.dynamic rfl)
  -- The time is up, or there is no limit and the run never ends.
  | endless => cases limit <;> exact throw (p.dynamic rfl)

/-- Both runs look for the same file and read the same tasks. -/
theorem included (label : String) (file : Document) :
    p.Relates cut (i.included label file) (i.included label file) := by
  rw [Interpreter.included]
  refine (consults (consults_render _ _) fun _ => p.dynamic).bind fun d => ?_
  split
  · refine (note rfl).bind fun _ => ?_
    -- The file holds a list of tasks, or it is refused.
    split
    · exact (note rfl).bind fun _ => pure _
    · exact throw (p.dynamic rfl)
  · exact throw (p.dynamic rfl)

end Relates

/-- A task whose own errors may stand for themselves. Other errors than these are dynamic, or come
from the lists inside the task. -/
structure Admits (p : Pairing) (i : Interpreter) (t : Definition) : Prop where
  lookup : ∀ {name args}, t.payload = .plugin name args → i.registry.get? name = none →
    p.errors (.pluginNotFound name) (.pluginNotFound name)
  args : ∀ {name args q s e}, t.payload = .plugin name args → i.registry.get? name = some q →
    (argsOf t.label q args s).1 = .error e → p.errors e e
  result : ∀ {name args q call e facts}, t.payload = .plugin name args →
    i.registry.get? name = some q → q.run call = .finished (.error e) facts →
    p.errors (.ofPlugin t.label e) (.ofPlugin t.label e)
  register : ∀ {s e}, (registerNameOf t s).1 = .error e → p.errors e e

/-- Where every error may stand for itself, every task is admitted. -/
theorem admits_of_refl (hrefl : ∀ e, p.errors e e) : p.Admits i t :=
  ⟨fun _ _ => hrefl _, fun _ _ _ => hrefl _, fun _ _ _ => hrefl _, fun _ => hrefl _⟩

/-- A task that is admitted stays so where errors have to be equal. -/
theorem Admits.strict (h : p.Admits i t) : p.strict.Admits i t :=
  ⟨fun ht hget => ⟨rfl, h.lookup ht hget⟩, fun ht hget he => ⟨rfl, h.args ht hget he⟩,
    fun ht hget he => ⟨rfl, h.result ht hget he⟩, fun he => ⟨rfl, h.register he⟩⟩

/-- A plugin is called alike in two runs of a task that is admitted. -/
theorem Relates.callPlugin {name : String} {q : Plugin} {args : Document} (h : p.Admits i t)
    (hpayload : t.payload = .plugin name args) (hget : i.registry.get? name = some q) :
    p.Relates cut (i.callPlugin t q args) (i.callPlugin t q args) := by
  rw [Interpreter.callPlugin]
  -- The arguments are the one part whose errors the pairing is asked about.
  have hargs : Consults (fun e => p.errors e e) (argsOf t.label q args) :=
    { consults_argsOf t.label q args with raises := h.args hpayload hget }
  refine (consults hargs fun _ herror => herror).bind fun args => ?_
  refine (consults (consults_limitOf i t) fun _ => p.dynamic).bind fun limit => ?_
  -- The plugin is called in equal contexts, so its calls are equal and end equally.
  refine bindContext fun c => (note rfl).bind fun _ => ?_
  exact settle limit fun hending => h.result hpayload hget hending

/-! ## Items -/

section Items

variable {inner inner' : List Document → Run Unit} {action action' : Action}

/-- The layer and the variables are the same in both runs, and so is what stands inside them. -/
theorem Relates.carryOut
    (hperform : p.Relates cut (i.perform inner t action) (i.perform inner' t action')) :
    p.Relates cut (i.carryOut inner t action) (i.carryOut inner' t action') := by
  rw [Interpreter.carryOut, Interpreter.carryOut]
  refine (consults (consults_layerOf t) fun _ => p.dynamic).bind fun layer => ?_
  refine Relates.withEnvironment layer ?_
  refine (consults (consults_renderVars _ _) fun _ => p.dynamic).bind fun vars => ?_
  exact hperform.withBindings vars

/-- Both runs want the item, or neither does. -/
theorem Relates.attempt
    (hperform : p.Relates cut (i.perform inner t action) (i.perform inner' t action')) :
    p.Relates cut (i.attempt inner t action) (i.attempt inner' t action') := by
  rw [Interpreter.attempt, Interpreter.attempt]
  refine (consults (consults_isWanted t) fun _ => p.dynamic).bind fun wanted => ?_
  split
  · exact pure _
  · exact hperform.carryOut.map some

/-- Items end alike. Where they end with one error, what is reported of them is the same. -/
structure SameItems (p : Pairing) (result result' : (β × Option Error) × Session) : Prop where
  errors : Option.Rel p.errors result.1.2 result'.1.2
  reports : result.1.2 = result'.1.2 → result.1.1 = result'.1.1
  alike : p.alike result.2 result'.2

/-- Items end alike whenever they begin alike, unless the first ones are cut off. -/
def ItemsRelate (p : Pairing) (cut : Prop) (act act' : StateM Session (β × Option Error)) : Prop :=
  ∀ s s' : Session, p.alike s s' →
    (cut ∧ (act s).1.2 = some .endless) ∨ p.SameItems (act s) (act' s')

/-- An item ends alike in both runs if what the task does is alike. -/
theorem Relates.runItem
    (hperform : p.Relates cut (i.perform inner t action) (i.perform inner' t action'))
    (ignore : Bool) (index : Nat) (item : Option Document) :
    p.ItemsRelate cut (i.runItem inner t action ignore index item)
      (i.runItem inner' t action' ignore index item) := by
  intro s s' halike
  have hact := (hperform.attempt.withBindings (itemBindings t item index)) s s' halike
  rw [runItem_apply, runItem_apply]
  generalize Run.withBindings (i.attempt inner t action) (itemBindings t item index) s = result,
    Run.withBindings (i.attempt inner' t action') (itemBindings t item index) s' = result' at hact
  obtain ⟨outcome, mid⟩ := result
  obtain ⟨outcome', mid'⟩ := result'
  rcases hact with ⟨hcut, hends⟩ | ⟨houtcome, hmid⟩
  · -- The error of a run that is cut off ends the list.
    obtain rfl : outcome = .error .endless := hends
    refine .inl ⟨hcut, ?_⟩
    have hends : Error.propagates .endless ignore = true := by simp [Error.propagates, Error.isIgnorable]
    simp only [hends, if_true]
  · refine .inr ?_
    cases houtcome with
    | ok done =>
      -- The item was skipped in both runs, or done in both.
      cases done with
      | none => exact ⟨.none, fun _ => rfl, p.noted rfl hmid⟩
      | some result => exact ⟨.none, fun _ => rfl, hmid⟩
    | @error e e' herrors =>
      have hfailed := p.failed herrors hmid
      by_cases hsame : e = e'
      · subst hsame
        -- One error, which ends the list in both runs or is ignored in both.
        cases hends : e.propagates ignore with
        | true =>
          simp only [hends, if_true]
          exact ⟨.some herrors, fun _ => rfl, hfailed⟩
        | false =>
          simp only [hends, Bool.false_eq_true, if_false]
          exact ⟨.none, fun _ => rfl, p.noted rfl hfailed⟩
      · -- Errors that differ cannot be ignored, so both of them end the list.
        have hboth : e.isIgnorable = false ∧ e'.isIgnorable = false := by
          have hnot := fun h => hsame (p.ignorable herrors h)
          simpa [not_or] using hnot
        have hends : e.propagates ignore = true ∧ e'.propagates ignore = true := by
          simp [Error.propagates, hboth]
        simp only [hends, if_true]
        exact ⟨.some herrors, fun h => absurd (Option.some.inj h) hsame, hfailed⟩

/-- Items are alike one after another. -/
theorem ItemsRelate.runItems
    {run run' : Nat → Option Document → StateM Session (Fields × Option Error)}
    (hrun : ∀ index item, p.ItemsRelate cut (run index item) (run' index item)) (index : Nat)
    (items : List (Option Document)) :
    p.ItemsRelate cut (runItems run index items) (runItems run' index items) := by
  -- By induction on the items, over all numbers that the first may have.
  induction items generalizing index with
  | nil => exact fun _ _ halike => .inr ⟨.none, fun _ => rfl, halike⟩
  | cons item rest ih =>
    intro s s' halike
    have hfirst := hrun index item s s' halike
    rw [runItems_cons, runItems_cons]
    generalize run index item s = result, run' index item s' = result' at hfirst
    obtain ⟨⟨report, e⟩, mid⟩ := result
    obtain ⟨⟨report', e'⟩, mid'⟩ := result'
    rcases hfirst with ⟨hcut, hends⟩ | ⟨herrors, hreport, hmid⟩
    · obtain rfl : e = some .endless := hends
      exact .inl ⟨hcut, rfl⟩
    · cases herrors with
      | @some e e' herrors =>
        -- An item whose error propagates is the last one.
        refine .inr ⟨.some herrors, fun h => ?_, hmid⟩
        exact congrArg (fun report => [report]) (hreport h)
      | none =>
        -- No error, so the reports of the item are equal and the rest goes on.
        obtain rfl : report = report' := hreport rfl
        rcases ih (index + 1) mid mid' hmid with hcut | ⟨hlater, hreports, hafter⟩
        · exact .inl hcut
        · exact .inr ⟨hlater, fun h => congrArg (List.cons report) (hreports h), hafter⟩

end Items

/-! ## Tasks -/

/-- What follows the items of a task is given their reports, their error and the session they left.
-/
theorem Relates.bindItems {act act' : StateM Session (β × Option Error)}
    {next next' : β × Option Error → Run α} (hact : p.ItemsRelate cut act act')
    (hcut : cut → ∀ reports s, (next (reports, some .endless) s).1 = .error .endless)
    (hnext : ∀ {items items' : β × Option Error} {s s' : Session},
      p.SameItems (items, s) (items', s') → p.SameEnd (next items s) (next' items' s')) :
    p.Relates cut (liftM act >>= next) (liftM act' >>= next') := by
  intro s s' halike
  have hitems := hact s s' halike
  show (cut ∧ (next (act s).1 (act s).2).1 = .error .endless) ∨
    p.SameEnd (next (act s).1 (act s).2) (next' (act' s').1 (act' s').2)
  generalize act s = result, act' s' = result' at hitems
  obtain ⟨⟨reports, e⟩, mid⟩ := result
  rcases hitems with ⟨hends, hendless⟩ | hsame
  -- Items that were cut off end with the error that says so, and what follows keeps it.
  · obtain rfl : e = some .endless := hendless
    exact .inl ⟨hends, hcut hends reports mid⟩
  · exact .inr (hnext hsame)

section Actions

variable {inner inner' : List Document → Run Unit} {action action' : Action}

/-- A task ends alike in both runs for the same reports and the same error. -/
theorem Relates.conclude (hname : Consults (fun e => p.errors e e) (registerNameOf t))
    (reports : List Fields) {e : Option Error} (he : ∀ why, e = some why → p.errors why why) :
    p.Relates cut (Interpreter.conclude t reports e) (Interpreter.conclude t reports e) := by
  unfold Interpreter.conclude
  refine (consults hname fun _ h => h).bind fun name => ?_
  -- With an error or without one, there is a name to register under or none.
  cases e with
  | none =>
    cases name with
    | none => exact pure _
    | some name => exact (note rfl).bind fun _ => (change _).bind fun _ => pure _
  | some why =>
    cases name with
    | none => exact throw (he why rfl)
    | some name => exact (note rfl).bind fun _ => (change _).bind fun _ => throw (he why rfl)

/-- Where errors have to be equal, a task that calls a plugin registers the same in both runs. -/
theorem Relates.runAction_plugin (hplugin : t.payload.isPlugin = true)
    (hregister : ∀ {s e}, (registerNameOf t s).1 = .error e → p.errors e e)
    (hperform : p.strict.Relates False (i.perform inner t action) (i.perform inner' t action')) :
    p.strict.Relates False (i.runAction inner t action) (i.runAction inner' t action') := by
  unfold runAction
  refine (consults (consults_ignoresErrors t) fun _ => p.strict.dynamic).bind fun ignore => ?_
  refine (consults (consults_itemsOf t) fun _ => p.strict.dynamic).bind fun items => ?_
  refine bindItems (ItemsRelate.runItems (fun index item => hperform.runItem ignore index item) 0 items)
    False.elim ?_
  rintro ⟨reports, e⟩ ⟨reports', e'⟩ s s' ⟨herrors, hreports, halike⟩
  -- The items end with errors that are equal here, so their reports are equal, too.
  have he : e = e' := by
    cases herrors with
    | some h => exact congrArg some h.1
    | none => rfl
  subst he
  obtain rfl : reports = reports' := hreports rfl
  -- Registering is the same step in both runs, and after it both end with the same error.
  have hname : Consults (fun e => p.strict.errors e e) (registerNameOf t) :=
    { consults_registerNameOf hplugin with raises := fun h => ⟨rfl, hregister h⟩ }
  have hconclude : p.strict.Relates False (Interpreter.conclude t reports e)
      (Interpreter.conclude t reports e) :=
    Relates.conclude hname reports fun why he => by
      subst he
      cases herrors with
      | some h => exact h
  exact (hconclude s s' halike).resolve_left fun h => h.1

/-- A task that runs lists ends as its items do. -/
theorem Relates.runAction_lists (hplugin : t.payload.isPlugin = false)
    (hperform : p.Relates cut (i.perform inner t action) (i.perform inner' t action')) :
    p.Relates cut (i.runAction inner t action) (i.runAction inner' t action') := by
  unfold runAction
  refine (consults (consults_ignoresErrors t) fun _ => p.dynamic).bind fun ignore => ?_
  refine (consults (consults_itemsOf t) fun _ => p.dynamic).bind fun items => ?_
  refine bindItems (ItemsRelate.runItems (fun index item => hperform.runItem ignore index item) 0 items)
    (fun _ reports s => ?_) ?_
  -- It registers nothing, so the error of its items is what it ends with.
  · exact congrArg Prod.fst (conclude_of_not_plugin hplugin reports _ s)
  · rintro ⟨reports, e⟩ ⟨reports', e'⟩ s s' ⟨herrors, -, halike⟩
    show p.SameEnd (Interpreter.conclude t reports e s) (Interpreter.conclude t reports' e' s')
    rw [conclude_of_not_plugin hplugin, conclude_of_not_plugin hplugin]
    -- The same end of the items, and the same note about a name that was left out.
    refine ⟨?_, ?_⟩
    · cases herrors with
      | some h => exact .error h
      | none => exact .ok ()
    · split
      · exact p.noted rfl halike
      · exact halike

/-- Two tasks with lists inside them that are run alike. -/
inductive Inside (p : Pairing) (cut : Prop) (inner inner' : List Document → Run Unit) :
    Definition → Definition → Prop where
  /-- There are no lists in a task that calls a plugin. -/
  | plugin {t : Definition} {name : String} {args : Document} (h : t.payload = .plugin name args) :
      Inside p cut inner inner' t t
  | block {t : Definition} {tasks tasks' : List Document} (h : t.payload = .block tasks)
      (alike : p.Relates cut (inner tasks) (inner' tasks')) :
      Inside p cut inner inner' t { t with payload := .block tasks' }
  | inclusion {t : Definition} {file : Document} (h : t.payload = .inclusion file)
      (alike : ∀ tasks, p.Relates cut (inner tasks) (inner' tasks)) :
      Inside p cut inner inner' t t

/-- A task whose lists are run alike, in two runs of the same task. -/
theorem Inside.self {t : Definition}
    (hblock : ∀ {tasks}, t.payload = .block tasks → p.Relates cut (inner tasks) (inner' tasks))
    (hinclusion : ∀ {file}, t.payload = .inclusion file →
      ∀ tasks, p.Relates cut (inner tasks) (inner' tasks)) :
    Inside p cut inner inner' t t := by
  cases hpayload : t.payload with
  | plugin name args => exact .plugin hpayload
  -- The list is replaced by itself.
  | block tasks =>
    have hsame := Inside.block hpayload (hblock hpayload)
    rwa [← hpayload] at hsame
  | inclusion file => exact .inclusion hpayload (hinclusion hpayload)

/-- **A task is alike in two runs if the lists inside it are.** -/
theorem Relates.runTask {t t' : Definition} (hadmits : p.Admits i t)
    (hinside : p.Inside cut inner inner' t t') :
    p.Relates cut (i.runTask inner t) (i.runTask inner' t') := by
  rw [runTask_eq, runTask_eq]
  cases hinside with
  | @plugin name args hpayload =>
    have hplugin : t.payload.isPlugin = true := by rw [hpayload]; rfl
    rw [hpayload, actionOf]
    -- A plugin that is not there is the one error before the items.
    cases hget : i.registry.get? name with
    | none => exact fun _ _ h => .inr ⟨.error (hadmits.lookup hpayload hget), h⟩
    | some q =>
      refine Relates.of_strict (runAction_plugin hplugin hadmits.register ?_)
      exact callPlugin hadmits.strict hpayload hget
  | @block tasks tasks' hpayload halike =>
    have hplugin : t.payload.isPlugin = false := by rw [hpayload]; rfl
    rw [actionOf, hpayload]
    -- Beside its list the second task is the first one.
    show p.Relates cut (i.runAction inner t (.block tasks))
      (i.runAction inner' { t with payload := .block tasks' } (.block tasks'))
    rw [runAction_block _ _ _ hpayload]
    exact runAction_lists hplugin (halike.bind fun _ => pure _)
  -- The files are the same, so the lists that are read from them are.
  | @inclusion file hpayload halike =>
    have hplugin : t.payload.isPlugin = false := by rw [hpayload]; rfl
    rw [hpayload, actionOf]
    refine runAction_lists hplugin ?_
    exact (included t.label file).bind fun tasks => (halike tasks).bind fun _ => pure _

/-- **A task that is read first is alike in two runs** if the readings are. -/
theorem Relates.runEntry {index index' : Nat} {d d' : Document}
    (hread : (∃ e e', Definition.parse index d = .error e ∧ Definition.parse index' d' = .error e' ∧
        p.errors e e') ∨
      ∃ t t', Definition.parse index d = .ok t ∧ Definition.parse index' d' = .ok t' ∧
        p.Admits i t ∧ p.Inside cut inner inner' t t') :
    p.Relates cut (i.runEntry inner index d) (i.runEntry inner' index' d') := by
  rw [Interpreter.runEntry, Interpreter.runEntry]
  refine Relates.noteFailure ?_
  rcases hread with ⟨e, e', he, he', herrors⟩ | ⟨t, t', ht, ht', hadmits, hinside⟩
  -- Neither reading comes to a task.
  · rw [he, he']
    exact throw herrors
  · rw [ht, ht']
    exact runTask hadmits hinside

/-- Lists are run alike if all their tasks are. -/
theorem Relates.runFrom {tasks : List Document} {index : Nat}
    (hentries : ∀ {k d}, tasks[k]? = some d →
      p.Relates cut (i.runEntry inner (index + k) d) (i.runEntry inner' (index + k) d)) :
    p.Relates cut (i.runFrom inner index tasks) (i.runFrom inner' index tasks) := by
  -- By induction on the tasks, over all numbers that the first may have.
  induction tasks generalizing index with
  | nil => exact pure ()
  | cons d rest ih =>
    have hfirst := hentries (k := 0) (d := d) rfl
    refine Relates.bind hfirst fun _ => ih fun {k d} hd => ?_
    -- What is at a place of the rest is one place further in the list.
    have hlater := hentries (k := k + 1) (d := d) hd
    rwa [Nat.add_comm k 1, ← Nat.add_assoc] at hlater

end Actions

end Interpreter

end Pairing

end SoftwareCensus.Tasks
