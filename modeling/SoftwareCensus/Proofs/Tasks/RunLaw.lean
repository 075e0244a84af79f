import SoftwareCensus.Tasks.Interpreter

/-!
# Laws of Runs

A run of tasks is put together from a few kinds of steps: an event is noted, the facts change, a
result is registered, something is done under a binding or a layer of environment entries, and an
error is carried on, ignored, or replaced by one of the name to register. A law of runs is a relation
between a session before, the error that something ended with, and the session after, which is kept
by all of these steps. It holds of every run then, whatever the tasks, the plugins and the files are.

Every function of the interpreter has one lemma here, so the recursion through blocks, inclusions
and loops is gone through once.

## Main results

* `RunLaw.runItem` : a law holds of a task for one item
* `RunLaw.runTasks` : a law holds of a run
-/

namespace SoftwareCensus.Tasks

/-! ## Sessions -/

namespace Session

/-- The session after an event. -/
def noted (s : Session) (event : Event) : Session := { s with journal := event :: s.journal }

/-- The session after a change of its context. -/
def changed (s : Session) (change : Context → Context) : Session :=
  { s with context := change s.context }

@[simp]
theorem context_noted (s : Session) (event : Event) : (s.noted event).context = s.context := rfl

@[simp]
theorem journal_noted (s : Session) (event : Event) :
    (s.noted event).journal = event :: s.journal := rfl

end Session

/-- The error that something ended with, if it failed. -/
def failure? {α : Type} : Except Error α → Option Error
  | .ok _ => none
  | .error e => some e

/-- Events that tell neither of a failure nor of a plugin and its result. -/
def Event.isQuiet : Event → Bool
  | .consulted _ | .included _ _ _ | .registerIgnored _ | .skipped _ _ => true
  | _ => false

/-- Errors that can be told from a task list, without running it. -/
def Error.isStatic : Error → Bool
  | pluginNotFound _ | invalidArgs _ _ | invalidRegister _ => true
  | _ => false

/-- Whether the name under which a task registers its result cannot be rendered. -/
def Definition.Unnameable (t : Definition) (c : Context) (why : Template.Error) : Prop :=
  t.payload.isPlugin = true ∧
    ∃ raw, t.register = some raw ∧ Template.render c.lookup (.str raw) = .error why

/-! ## Laws -/

/-- What every step of a run keeps. The last four are what can become of the error of an item, after
it was noted. -/
structure RunLaw (R : Session → Option Error → Session → Prop) : Prop where
  /-- Nothing is done, whatever comes of it. -/
  refl {s : Session} {outcome : Option Error} : R s outcome s
  trans {s mid after : Session} {outcome : Option Error} :
    R s none mid → R mid outcome after → R s outcome after
  quiet {s : Session} {event : Event} : event.isQuiet = true → R s none (s.noted event)
  called {s : Session} {plugin : String} :
    R s none (s.noted (.called plugin s.context.environmentEntries))
  facts {s : Session} {d : Document} : R s none (s.changed fun c => { c with facts := d })
  registered {s : Session} {task name : String} {d : Document} :
    R s none ((s.noted (.registered task name)).changed (·.set name d))
  binding {s after : Session} {outcome : Option Error} {name : String} {d : Document} :
    R (s.changed (·.set name d)) outcome after →
      R s outcome (after.changed (·.rebind name (s.context.overlay.get? name)))
  layer {s after : Session} {outcome : Option Error} {layer : Fields} :
    R (s.changed (·.pushEnvironment layer)) outcome after →
      R s outcome (after.changed (·.popEnvironment))
  /-- The error waits while something is done, and ends the list. -/
  waits {s mid after : Session} {e : Error} :
    R s (some e) mid → R (mid.noted (.failed e)) none after → R s (some e) after
  ignored {s mid : Session} {e : Error} {task : String} {index : Nat} :
    e.isIgnorable = true → R s (some e) mid →
      R s none ((mid.noted (.failed e)).noted (.ignored task index e))
  misnamed {s mid : Session} {e : Error} {name : String} :
    R s (some e) mid → R s (some (.invalidRegister name)) (mid.noted (.failed e))
  unnameable {s mid : Session} {e : Error} {t : Definition} {why : Template.Error} :
    t.Unnameable mid.context why → R s (some e) mid →
      R s (some (.template t.label why)) (mid.noted (.failed e))

/-- Whether a law holds of something that may fail. -/
def Obeys {α : Type} (R : Session → Option Error → Session → Prop) (act : Run α) : Prop :=
  ∀ s, R s (failure? (act s).1) (act s).2

/-- Whether a law holds of a task for some of its items. The error that ends them was noted last. -/
def ItemsObey {β : Type} (R : Session → Option Error → Session → Prop)
    (act : StateM Session (β × Option Error)) : Prop :=
  ∀ s, match (act s).1.2 with
    | none => R s none (act s).2
    | some e => ∃ mid, R s (some e) mid ∧ (act s).2 = mid.noted (.failed e)

/-! ## Sequences -/

namespace Run

variable {α β : Type}

/-- What follows begins where the first part ended; an error ends both. -/
theorem bind_apply (act : Run α) (next : α → Run β) (s : Session) :
    (act >>= next) s = match act s with
      | (.ok x, mid) => next x mid
      | (.error e, mid) => (.error e, mid) := by
  show (ExceptT.bindCont next (act s).1) (act s).2 = _
  cases act s with
  | mk outcome mid => cases outcome <;> rfl

/-- A sequence comes to a result if both parts do, the second in the session that the first left. -/
theorem bind_eq_ok {act : Run α} {next : α → Run β} {s after : Session} {y : β}
    (h : (act >>= next) s = (.ok y, after)) :
    ∃ x mid, act s = (.ok x, mid) ∧ next x mid = (.ok y, after) := by
  rw [bind_apply] at h
  cases hact : act s with
  | mk outcome mid =>
    rw [hact] at h
    cases outcome with
    | error e => cases h
    | ok x => exact ⟨x, mid, rfl, h⟩

/-- A sequence fails in its first part, or in the second after the first came to a result. -/
theorem bind_eq_error {act : Run α} {next : α → Run β} {s after : Session} {e : Error}
    (h : (act >>= next) s = (.error e, after)) :
    act s = (.error e, after) ∨
      ∃ x mid, act s = (.ok x, mid) ∧ next x mid = (.error e, after) := by
  rw [bind_apply] at h
  cases hact : act s with
  | mk outcome mid =>
    rw [hact] at h
    cases outcome with
    | error why => cases h; exact Or.inl rfl
    | ok x => exact Or.inr ⟨x, mid, rfl, h⟩

/-- The context is read without changing the session. -/
theorem context_apply (s : Session) : context s = (.ok s.context, s) := rfl

/-- What cannot fail is always followed by what comes next. -/
theorem stateBind_apply (act : StateM Session α) (next : α → StateM Session β) (s : Session) :
    (act >>= next) s = next (act s).1 (act s).2 := rfl

/-- Whether something leaves the session as it is. -/
def ReadsOnly (act : Run α) : Prop := ∀ s, (act s).2 = s

theorem readsOnly_pure (x : α) : ReadsOnly (pure x : Run α) := fun _ => rfl

theorem readsOnly_throw (e : Error) : ReadsOnly (throw e : Run α) := fun _ => rfl

theorem readsOnly_lift (outcome : Except Error α) : ReadsOnly (liftM outcome : Run α) := by
  intro s
  cases outcome <;> rfl

/-- The session after something that only reads is the one before it. -/
theorem ReadsOnly.eq {act : Run α} (h : ReadsOnly act) {s after : Session}
    {outcome : Except Error α} (happly : act s = (outcome, after)) : after = s :=
  (congrArg Prod.snd happly).symm.trans (h s)

theorem ReadsOnly.bind {act : Run α} {next : α → Run β} (hact : ReadsOnly act)
    (hnext : ∀ x, ReadsOnly (next x)) : ReadsOnly (act >>= next) := by
  intro s
  have hmid := hact s
  rw [bind_apply]
  generalize act s = result at hmid ⊢
  obtain ⟨outcome, mid⟩ := result
  obtain rfl : mid = s := hmid
  -- An error of the first part is that of the whole, with nothing done in between.
  cases outcome with
  | ok x => exact hnext x mid
  | error e => rfl

/-- A document is rendered in the context of the session, and an error names the task. -/
theorem render_apply (label : String) (d : Document) (s : Session) :
    render label d s = match Template.render s.context.lookup d with
      | .ok d => (.ok d, s)
      | .error e => (.error (.template label e), s) := by
  rw [render, bind_apply, context_apply]
  dsimp only
  cases Template.render s.context.lookup d <;> rfl

theorem readsOnly_render (label : String) (d : Document) : ReadsOnly (render label d) := by
  intro s
  rw [render_apply]
  split <;> rfl

/-- Whether something only consults the context: it leaves the session as it is, it comes to the same
in equal contexts, and it fails with errors of a certain kind. -/
structure Consults (raises : Error → Prop) (act : Run α) : Prop where
  readsOnly : ReadsOnly act
  congr : ∀ {s s' : Session}, s.context = s'.context → (act s).1 = (act s').1
  raises : ∀ {s : Session} {e : Error}, (act s).1 = .error e → raises e

namespace Consults

variable {raises : Error → Prop}

theorem pure (x : α) : Consults raises (Pure.pure x : Run α) :=
  ⟨readsOnly_pure x, fun _ => rfl, nofun⟩

theorem throw {e : Error} (h : raises e) : Consults raises (MonadExcept.throw e : Run α) :=
  ⟨readsOnly_throw e, fun _ => rfl, fun hthrown => Except.error.inj hthrown ▸ h⟩

/-- A sequence consults the context if both parts do. -/
theorem bind {act : Run α} {next : α → Run β} (hact : Consults raises act)
    (hnext : ∀ x, Consults raises (next x)) : Consults raises (act >>= next) := by
  -- The second part begins in the session in which the first one began.
  have hsplit : ∀ s : Session, ((act >>= next) s).1 =
      match (act s).1 with
      | .ok x => (next x s).1
      | .error e => .error e := by
    intro s
    have hmid := hact.readsOnly s
    rw [bind_apply]
    generalize act s = result at hmid ⊢
    obtain ⟨outcome, mid⟩ := result
    obtain rfl : mid = s := hmid
    cases outcome <;> rfl
  refine ⟨hact.readsOnly.bind fun x => (hnext x).readsOnly, fun {s s'} hcontext => ?_,
    fun {s e} herror => ?_⟩
  -- Equal contexts: the first parts come to the same, and so does what follows.
  · rw [hsplit, hsplit, hact.congr hcontext]
    cases (act s').1 with
    | ok x => exact (hnext x).congr hcontext
    | error e => rfl
  -- An error of the whole is one of the first part or of what follows.
  · rw [hsplit] at herror
    cases hact' : (act s).1 with
    | ok x =>
      rw [hact'] at herror
      exact (hnext x).raises herror
    | error why =>
      rw [hact'] at herror
      exact Except.error.inj herror ▸ hact.raises hact'

/-- An outcome that is there already consults nothing. -/
theorem lift {outcome : Except Error α} (h : ∀ e, outcome = .error e → raises e) :
    Consults raises (liftM outcome : Run α) := by
  cases outcome with
  | ok x => exact .pure x
  | error e => exact .throw (h e rfl)

/-- Kinds of errors may be widened. -/
theorem mono {raises' : Error → Prop} {act : Run α} (h : Consults raises act)
    (hmono : ∀ e, raises e → raises' e) : Consults raises' act :=
  ⟨h.readsOnly, h.congr, fun herror => hmono _ (h.raises herror)⟩

end Consults

/-- Rendering fails with a template error, which no task list can tell beforehand. -/
theorem consults_render (label : String) (d : Document) :
    Consults (·.isStatic = false) (render label d) := by
  refine ⟨readsOnly_render label d, fun {s s'} hcontext => ?_, fun {s e} herror => ?_⟩
  · rw [render_apply, render_apply, hcontext]
    cases Template.render s'.context.lookup d <;> rfl
  -- The only error is the one of the template.
  · rw [render_apply] at herror
    cases hrender : Template.render s.context.lookup d with
    | ok d =>
      rw [hrender] at herror
      cases herror
    | error why =>
      rw [hrender] at herror
      cases herror
      rfl

/-- A condition is decided in the context of the session, and an error names the task. -/
theorem holds_apply (label : String) (d : Document) (s : Session) :
    holds label d s = match Template.condition s.context.lookup d with
      | .ok b => (.ok b, s)
      | .error e => (.error (.template label e), s) := by
  rw [holds, bind_apply, context_apply]
  dsimp only
  cases Template.condition s.context.lookup d <;> rfl

/-- Deciding a condition fails with a template error, too. -/
theorem consults_holds (label : String) (d : Document) :
    Consults (·.isStatic = false) (holds label d) := by
  refine ⟨fun s => ?_, fun {s s'} hcontext => ?_, fun {s e} herror => ?_⟩
  · rw [holds_apply]
    split <;> rfl
  · rw [holds_apply, holds_apply, hcontext]
    cases Template.condition s'.context.lookup d <;> rfl
  · rw [holds_apply] at herror
    cases hholds : Template.condition s.context.lookup d with
    | ok b =>
      rw [hholds] at herror
      cases herror
    | error why =>
      rw [hholds] at herror
      cases herror
      rfl

end Run

open Run Interpreter

/-! ## What only reads -/

namespace Interpreter

variable (i : Interpreter) (t : Definition)

theorem consults_limitOf : Consults (·.isStatic = false) (i.limitOf t) := by
  rw [limitOf]
  split
  · exact .pure _
  · refine (consults_render _ _).bind fun d => ?_
    -- The limit is rendered to a number, or it is refused.
    split
    · exact .pure _
    · exact .throw rfl

theorem readsOnly_limitOf : ReadsOnly (i.limitOf t) := (consults_limitOf i t).readsOnly

/-- Arguments are refused by the plugin that they are for. -/
theorem validate_eq_error {label : String} {p : Plugin} {args : Document} {e : Error}
    (h : (p.validate args).mapError (Error.ofPlugin label) = .error e) :
    ∃ flaw, e = .invalidArgs p.name flaw := by
  rw [Plugin.validate] at h
  generalize (do let args ← p.args.validate args; p.check args; return args :
    Except ArgFlaw Document) = result at h
  cases result with
  | ok args => cases h
  | error flaw => exact ⟨flaw, (Except.error.inj h).symm⟩

theorem consults_argsOf (label : String) (p : Plugin) (args : Document) :
    Consults (fun e => e.isStatic = false ∨ ∃ flaw, e = .invalidArgs p.name flaw)
      (argsOf label p args) := by
  -- The validation reads no context, so only rendering the arguments consults one.
  have hvalidate : ∀ args, Consults
      (fun e => e.isStatic = false ∨ ∃ flaw, e = .invalidArgs p.name flaw)
      (liftM ((p.validate args).mapError (Error.ofPlugin label)) : Run Document) :=
    fun args => .lift fun e h => .inr (validate_eq_error h)
  rw [argsOf]
  -- Arguments are validated after they were rendered, or as they stand.
  split
  · exact ((consults_render _ _).mono fun e h => .inl h).bind hvalidate
  · exact (Consults.pure _).bind hvalidate

theorem readsOnly_argsOf (label : String) (p : Plugin) (args : Document) :
    ReadsOnly (argsOf label p args) := (consults_argsOf label p args).readsOnly

theorem consults_layerOf : Consults (·.isStatic = false) (layerOf t) := by
  rw [layerOf]
  split
  · exact .pure _
  · refine (consults_render _ _).bind fun d => ?_
    -- The layer is rendered to a mapping, or it is refused.
    split
    · exact .pure _
    · exact .throw rfl

theorem readsOnly_layerOf : ReadsOnly (layerOf t) := (consults_layerOf t).readsOnly

theorem consults_renderVars (label : String) (vars : List (String × Document)) :
    Consults (·.isStatic = false) (renderVars label vars) := by
  -- By induction on the variables, which are rendered one after another.
  induction vars with
  | nil => exact .pure _
  | cons entry rest ih =>
    rw [renderVars]
    exact (consults_render _ _).bind fun _ => ih.bind fun _ => .pure _

theorem readsOnly_renderVars (label : String) (vars : List (String × Document)) :
    ReadsOnly (renderVars label vars) := (consults_renderVars label vars).readsOnly

theorem consults_isWanted : Consults (·.isStatic = false) (isWanted t) := by
  rw [isWanted]
  split
  · exact .pure _
  · exact consults_holds _ _

theorem readsOnly_isWanted : ReadsOnly (isWanted t) := (consults_isWanted t).readsOnly

theorem consults_ignoresErrors : Consults (·.isStatic = false) (ignoresErrors t) := by
  rw [ignoresErrors]
  split
  · exact .pure _
  · exact consults_holds _ _

theorem consults_itemsOf : Consults (·.isStatic = false) (itemsOf t) := by
  rw [itemsOf]
  split
  · exact .pure _
  · refine (consults_render _ _).bind fun d => ?_
    split
    · exact .pure _
    · exact .throw rfl

/-- How the name of a result is found: there is none to register, or a name, or an error of the name
itself. -/
theorem registerNameOf_cases (s : Session) :
    registerNameOf t s = (.ok none, s) ∨
      registerNameOf t s = (.ok none, s.noted (.registerIgnored t.label)) ∨
      (∃ name, registerNameOf t s = (.ok (some name), s)) ∨
      (∃ name, registerNameOf t s = (.error (.invalidRegister name), s)) ∨
      ∃ why, t.Unnameable s.context why ∧
        registerNameOf t s = (.error (.template t.label why), s) := by
  rw [registerNameOf]
  cases hregister : t.register with
  -- There is no name to register under.
  | none => exact Or.inl rfl
  | some raw =>
    cases hplugin : t.payload.isPlugin with
    -- Only plugin calls register a result; the name of a block or an inclusion is noted and
    -- dropped.
    | false => exact Or.inr (Or.inl rfl)
    | true =>
      simp only [Bool.not_true, Bool.false_eq_true, if_false]
      rw [bind_apply, render_apply]
      cases hrender : Template.render s.context.lookup (.str raw) with
      | error why =>
        exact Or.inr (Or.inr (Or.inr (Or.inr ⟨why, ⟨hplugin, raw, hregister, hrender⟩, rfl⟩)))
      | ok d =>
        -- The rendered name is an identifier, or it is refused.
        by_cases hname : isIdentifier d.display = true
        · exact Or.inr (Or.inr (Or.inl ⟨d.display, by simp only [hname]; rfl⟩))
        · exact Or.inr (Or.inr (Or.inr (Or.inl ⟨d.display, by simp only [hname]; rfl⟩)))

/-- How a task ends for one item: it was skipped, it was done, or its error is noted, and after that
it ends the list or is ignored. -/
theorem runItem_apply (inner : List Document → Run Unit) (action : Action) (ignore : Bool)
    (index : Nat) (item : Option Document) (s : Session) :
    i.runItem inner t action ignore index item s =
      match withBindings (i.attempt inner t action) (itemBindings t item index) s with
      | (.ok none, mid) =>
        ((reportSkipped (reportStart t item), none), mid.noted (.skipped t.label index))
      | (.ok (some result), mid) => ((reportDone t (reportStart t item) result, none), mid)
      | (.error e, mid) =>
        if e.propagates ignore then
          ((reportFailed (reportStart t item) e, some e), mid.noted (.failed e))
        else
          ((reportFailed (reportStart t item) e, none),
            (mid.noted (.failed e)).noted (.ignored t.label index e)) := by
  rw [runItem, stateBind_apply]
  simp only [ExceptT.run, noteFailure]
  generalize withBindings (i.attempt inner t action) (itemBindings t item index) s = result
  obtain ⟨(e | (_ | done)), mid⟩ := result
  -- The error ends the list or is ignored; the other two cases are an item skipped and an item
  -- done.
  · cases hends : e.propagates ignore <;> simp only [hends] <;> rfl
  · rfl
  · rfl

/-- The items behind one that ends the list are never begun. -/
theorem runItems_cons (run : Nat → Option Document → StateM Session (Fields × Option Error))
    (index : Nat) (item : Option Document) (rest : List (Option Document)) (s : Session) :
    runItems run index (item :: rest) s =
      match run index item s with
      | ((report, some e), mid) => (([report], some e), mid)
      | ((report, none), mid) =>
        match runItems run (index + 1) rest mid with
        | ((reports, e), after) => ((report :: reports, e), after) := by
  rw [runItems, stateBind_apply]
  generalize run index item s = result
  obtain ⟨⟨report, e⟩, mid⟩ := result
  cases e <;> rfl

/-- How a task ends after its items: the name is found first, and its own error takes the place of
that of the items. -/
theorem conclude_apply (reports : List Fields) (e : Option Error) (s : Session) :
    conclude t reports e s =
      match registerNameOf t s with
      | (.ok none, mid) => (e.elim (.ok ()) .error, mid)
      | (.ok (some name), mid) =>
        (e.elim (.ok ()) .error, (mid.noted (.registered t.label name)).changed
          (·.set name (registered t reports e)))
      | (.error why, mid) => (.error why, mid) := by
  unfold conclude
  rw [bind_apply]
  generalize registerNameOf t s = result
  obtain ⟨(why | (_ | name)), mid⟩ := result <;> cases e <;> rfl

end Interpreter

/-! ## What obeys a law -/

namespace RunLaw

variable {R : Session → Option Error → Session → Prop} (law : RunLaw R) {α β : Type}

/-- What follows may depend on the context that it begins in. -/
theorem bindContext {next : Context → Run α}
    (hnext : ∀ s, R s (failure? (next s.context s).1) (next s.context s).2) :
    Obeys R (context >>= next) :=
  fun s => hnext s

theorem change {f : Context → Context} (hchange : ∀ s : Session, R s none (s.changed f)) :
    Obeys R (Run.change f) :=
  fun s => hchange s

include law

/-- What leaves the session as it is obeys every law. -/
theorem readsOnly {act : Run α} (hact : ReadsOnly act) : Obeys R act := by
  intro s
  rw [hact s]
  exact law.refl

theorem pure (x : α) : Obeys R (Pure.pure x : Run α) := law.readsOnly (readsOnly_pure x)

theorem throw (e : Error) : Obeys R (MonadExcept.throw e : Run α) := law.readsOnly (readsOnly_throw e)

/-- A law holds of a sequence if it holds of both parts. -/
theorem bind {act : Run α} {next : α → Run β} (hact : Obeys R act)
    (hnext : ∀ x, Obeys R (next x)) : Obeys R (act >>= next) := by
  intro s
  have hfirst := hact s
  rw [bind_apply]
  generalize act s = result at hfirst ⊢
  obtain ⟨outcome, mid⟩ := result
  -- Either what follows goes on from `mid`, or the error ends both there.
  cases outcome with
  | ok x => exact law.trans hfirst (hnext x mid)
  | error e => exact hfirst

theorem map {act : Run α} (hact : Obeys R act) (f : α → β) : Obeys R (f <$> act) := by
  rw [map_eq_pure_bind]
  exact law.bind hact fun _ => law.pure _

theorem bindNote {s : Session} {event : Event} {next : Unit → Run α}
    (hevent : R s none (s.noted event)) (hnext : Obeys R (next ())) :
    R s (failure? ((Run.note event >>= next) s).1) ((Run.note event >>= next) s).2 :=
  law.trans hevent (hnext (s.noted event))

theorem note {event : Event} (hquiet : event.isQuiet = true) : Obeys R (note event) :=
  fun _ => law.quiet hquiet

theorem withBinding {act : Run α} (hact : Obeys R act) (name : String) (d : Document) :
    Obeys R (withBinding name d act) :=
  fun s => law.binding (hact (s.changed (·.set name d)))

/-- Bindings are set one inside the other. -/
theorem withBindings {act : Run α} (hact : Obeys R act) (bindings : List (String × Document)) :
    Obeys R (withBindings act bindings) := by
  -- By induction on the bindings: the first is the outermost.
  induction bindings with
  | nil => exact hact
  | cons entry rest ih => exact law.withBinding ih entry.1 entry.2

theorem withEnvironment {act : Run α} (hact : Obeys R act) (layer : Option Fields) :
    Obeys R (withEnvironment layer act) := by
  cases layer with
  | none => exact hact
  | some layer => exact fun s => law.layer (hact (s.changed (·.pushEnvironment layer)))

/-- Noting an error is one of the steps that a law keeps. -/
theorem noteFailure {act : Run α} (hact : Obeys R act) : Obeys R (noteFailure act) := by
  intro s
  have hbefore := hact s
  unfold Run.noteFailure
  generalize act s = result at hbefore ⊢
  obtain ⟨outcome, mid⟩ := result
  cases outcome with
  | ok x => exact hbefore
  -- The error waits for nothing here, it is noted at once.
  | error e => exact law.waits hbefore law.refl

/-! ## The interpreter -/

variable (i : Interpreter) (t : Definition)

/-- A result that asks for a change of the facts changes them, or is refused. -/
theorem adopt (label : String) (result : Document) : Obeys R (adopt label result) := by
  unfold Interpreter.adopt
  split
  · refine law.bind (law.readsOnly (readsOnly_lift _)) fun policy => ?_
    -- The result brings no facts, null, a mapping of them, or something that is no mapping.
    split
    · exact law.pure _
    · exact law.pure _
    · exact law.bind (change fun _ => law.facts) fun _ => law.pure _
    · exact law.bind (law.throw _) fun _ => law.pure _
  · exact law.pure _

/-- A plugin that comes to a result hands its facts back, and no other ending changes anything. -/
theorem settle (p : Plugin) (limit : Option Nat) (ending : Plugin.Ending) :
    Obeys R (settle t p limit ending) := by
  cases ending with
  | finished result facts =>
    cases result with
    | ok result => exact law.bind (change fun _ => law.facts) fun _ => law.adopt _ _
    | error e => exact law.throw _
  | crashed => exact law.throw _
  -- It runs into its limit, or it never comes back, and there is no result in either case.
  | endless => cases limit <;> exact law.throw _

/-- The arguments and the limit are read, then the plugin is called and its ending settled. -/
theorem callPlugin (p : Plugin) (args : Document) : Obeys R (i.callPlugin t p args) := by
  rw [Interpreter.callPlugin]
  refine law.bind (law.readsOnly (readsOnly_argsOf _ _ _)) fun args => ?_
  refine law.bind (law.readsOnly (readsOnly_limitOf i t)) fun limit => ?_
  -- The plugin is called with the environment of the context that it is called in.
  refine bindContext fun s => law.bindNote law.called ?_
  exact law.settle t p limit _

/-- A file is consulted and read, and neither changes the context. -/
theorem included (label : String) (file : Document) : Obeys R (i.included label file) := by
  rw [Interpreter.included]
  refine law.bind (law.readsOnly (readsOnly_render _ _)) fun d => ?_
  split
  · refine law.bind (law.note rfl) fun _ => ?_
    split
    · exact law.bind (law.note rfl) fun _ => law.pure _
    · exact law.throw _
  · exact law.throw _

section Items

variable {inner : List Document → Run Unit} (hinner : ∀ tasks, Obeys R (inner tasks))

include hinner

/-- A law that holds of the inner lists holds of all that a task can do. -/
theorem perform (action : Action) : Obeys R (i.perform inner t action) := by
  cases action with
  | call p args => exact law.callPlugin i t p args
  | block tasks => exact law.bind (hinner tasks) fun _ => law.pure _
  | inclusion file =>
    exact law.bind (law.included i _ _) fun tasks => law.bind (hinner tasks) fun _ => law.pure _

/-- A task is carried out under its layer and, inside that, under its variables. -/
theorem carryOut (action : Action) : Obeys R (i.carryOut inner t action) := by
  rw [Interpreter.carryOut]
  refine law.bind (law.readsOnly (readsOnly_layerOf t)) fun layer => ?_
  refine law.withEnvironment (law.bind (law.readsOnly (readsOnly_renderVars _ _)) ?_) layer
  -- The variables are rendered under the layer, so they are bound inside it.
  intro vars
  exact law.withBindings (law.perform i t hinner action) vars

/-- A task that is not wanted does nothing. -/
theorem attempt (action : Action) : Obeys R (i.attempt inner t action) := by
  rw [Interpreter.attempt]
  refine law.bind (law.readsOnly (readsOnly_isWanted t)) fun wanted => ?_
  split
  · exact law.pure _
  · exact law.map (law.carryOut i t hinner action) some

/-- A law holds of a task for one item. -/
theorem runItem (action : Action) (ignore : Bool) (index : Nat) (item : Option Document) :
    ItemsObey R (i.runItem inner t action ignore index item) := by
  intro s
  have hact := law.withBindings (law.attempt i t hinner action) (itemBindings t item index) s
  rw [runItem_apply]
  generalize Run.withBindings (i.attempt inner t action) (itemBindings t item index) s = result
    at hact ⊢
  obtain ⟨outcome, mid⟩ := result
  rcases outcome with e | (_ | done)
  · cases hends : e.propagates ignore with
    | true =>
      simp only [hends, if_true]
      exact ⟨mid, hact, rfl⟩
    | false =>
      -- That an error is ignored says of the error, too, that it may be.
      have hignorable : e.isIgnorable = true := by
        simp only [Error.propagates, Bool.or_eq_false_iff, Bool.not_eq_false'] at hends
        exact hends.2
      simp only [hends, Bool.false_eq_true, if_false]
      exact law.ignored hignorable hact
  -- The item was skipped, and this is noted.
  · exact law.trans hact (law.quiet rfl)
  · exact hact

end Items

/-- A law holds of items one after another, up to the first that fails. -/
theorem runItems {run : Nat → Option Document → StateM Session (Fields × Option Error)}
    (hrun : ∀ index item, ItemsObey R (run index item)) (index : Nat)
    (items : List (Option Document)) : ItemsObey R (runItems run index items) := by
  -- By induction on the items, over all numbers that the first may have.
  induction items generalizing index with
  | nil => exact fun _ => law.refl
  | cons item rest ih =>
    intro s
    have hfirst := hrun index item s
    rw [runItems_cons]
    generalize run index item s = result at hfirst ⊢
    obtain ⟨⟨report, e⟩, mid⟩ := result
    cases e with
    -- The first item ends the task.
    | some e => exact hfirst
    | none =>
      have hrest := ih (index + 1) mid
      simp only
      -- The items behind it begin where the first one ended.
      generalize Interpreter.runItems run (index + 1) rest mid = later at hrest ⊢
      obtain ⟨⟨reports, e⟩, after⟩ := later
      cases e with
      | none => exact law.trans hfirst hrest
      | some e =>
        obtain ⟨before, hbefore, hnoted⟩ := hrest
        exact ⟨before, law.trans hfirst hbefore, hnoted⟩

/-- After its items a task ends with their error, or with an error of the name to register. -/
theorem conclude (reports : List Fields) {s after : Session} {e : Option Error}
    (hitems : match e with
      | none => R s none after
      | some e => ∃ mid, R s (some e) mid ∧ after = mid.noted (.failed e)) :
    R s (failure? (conclude t reports e after).1) (conclude t reports e after).2 := by
  rw [conclude_apply]
  -- Without an error of the name, the error of the items waits until the result is registered.
  have hdone : ∀ last, R after none last →
      R s (failure? (e.elim (.ok ()) .error : Except Error Unit)) last := by
    intro last hlast
    cases e with
    | none => exact law.trans hitems hlast
    | some e =>
      obtain ⟨mid, hmid, rfl⟩ := hitems
      exact law.waits hmid hlast
  rcases registerNameOf_cases t after with hname | hname | ⟨name, hname⟩ | ⟨name, hname⟩ |
    ⟨why, hwhy, hname⟩ <;> rw [hname]
  -- No name, a name that is dropped, and a name under which the result is registered.
  · exact hdone _ law.refl
  · exact hdone _ (law.quiet rfl)
  · exact hdone _ law.registered
  · cases e with
    | none => exact law.trans hitems law.refl
    | some e =>
      obtain ⟨mid, hmid, rfl⟩ := hitems
      exact law.misnamed hmid
  · cases e with
    | none => exact law.trans hitems law.refl
    | some e =>
      obtain ⟨mid, hmid, rfl⟩ := hitems
      exact law.unnameable hwhy hmid

section Lists

variable {inner : List Document → Run Unit} (hinner : ∀ tasks, Obeys R (inner tasks))

include hinner

/-- A task reads what it is to do, and then does it for its items. -/
theorem runTask : Obeys R (i.runTask inner t) := by
  rw [Interpreter.runTask]
  refine law.bind (law.readsOnly (readsOnly_lift _)) fun action => ?_
  refine law.bind (law.readsOnly (consults_ignoresErrors t).readsOnly) fun ignore => ?_
  refine law.bind (law.readsOnly (consults_itemsOf t).readsOnly) fun items => ?_
  intro s
  exact law.conclude t _ (law.runItems (law.runItem i t hinner action ignore) 0 items s)

/-- An entry that is no task fails as a task does. -/
theorem runEntry (index : Nat) (d : Document) : Obeys R (i.runEntry inner index d) := by
  rw [Interpreter.runEntry]
  exact law.noteFailure (law.bind (law.readsOnly (readsOnly_lift _)) fun t => law.runTask i t hinner)

theorem runFrom (index : Nat) (tasks : List Document) : Obeys R (i.runFrom inner index tasks) := by
  -- By induction on the tasks; the error of one ends the list.
  induction tasks generalizing index with
  | nil => exact law.pure _
  | cons d rest ih => exact law.bind (law.runEntry i hinner index d) fun _ => ih (index + 1)

end Lists

/-- **A law holds of every run**, at every depth of blocks and inclusions. -/
theorem runTasks (levels : Nat) (tasks : List Document) : Obeys R (i.runTasks levels tasks) := by
  -- The lists inside a list have a level less, so every function is given what holds of them.
  induction levels generalizing tasks with
  | zero => exact law.throw _
  | succ levels ih => exact law.runFrom i ih 0 tasks

end RunLaw

end SoftwareCensus.Tasks
