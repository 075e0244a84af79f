import SoftwareCensus.Proofs.Tasks.Loops

/-!
# Calls Inside a Run

The calls of plugins are described twice here: as what a task list comes to, by following its tasks,
their items, blocks and inclusions, and as what the journal of a run tells. Both are the same calls.

## Main results

* `Interpreter.told_runTasks` : a call that the journal of a run tells is one of its task list
* `Invokes.told` : a call of a task list is told by the journal of its run
-/

namespace SoftwareCensus.Tasks

open Run Interpreter

/-- The session with a layer of environment entries more, if there is one. -/
def Session.pushed (s : Session) (layer : Option Fields) : Session :=
  layer.elim s fun layer => s.changed (·.pushEnvironment layer)

namespace Session

variable (s : Session)

/-- A layer of environment entries is no event. -/
@[simp]
theorem journal_pushed (layer : Option Fields) : (s.pushed layer).journal = s.journal := by
  cases layer <;> rfl

/-- Nor is a binding. -/
@[simp]
theorem journal_bound (bindings : List (String × Document)) :
    (s.bound bindings).journal = s.journal := by
  induction bindings generalizing s with
  | nil => rfl
  | cons entry rest ih => exact ih (s.changed (·.set entry.1 entry.2))

end Session

namespace Run

variable {α β : Type}

/-- Changing a result tells nothing. -/
theorem journal_map (act : Run α) (f : α → β) (s : Session) :
    ((f <$> act) s).2.journal = (act s).2.journal := by
  rw [map_eq_pure_bind, bind_apply]
  generalize act s = result
  obtain ⟨(e | x), mid⟩ := result <;> rfl

/-- What is told under a layer is told in the session that has the layer. -/
theorem journal_withEnvironment (layer : Option Fields) (act : Run α) (s : Session) :
    (withEnvironment layer act s).2.journal = (act (s.pushed layer)).2.journal := by
  cases layer <;> rfl

end Run

/-- A journal only grows. -/
theorem journal_law : RunLaw fun s _ after => s.journal <:+ after.journal where
  refl := List.suffix_refl _
  trans hfirst hnext := hfirst.trans hnext
  -- Every kind of step adds its events in front, if it adds any.
  quiet _ := List.suffix_cons ..
  called := List.suffix_cons ..
  facts := List.suffix_refl _
  registered := List.suffix_cons ..
  binding h := h
  layer h := h
  waits hfirst hnext := hfirst.trans ((List.suffix_cons ..).trans hnext)
  ignored _ h := (h.trans (List.suffix_cons ..)).trans (List.suffix_cons ..)
  misnamed h := h.trans (List.suffix_cons ..)
  unnameable _ h := h.trans (List.suffix_cons ..)

/-! ## Calls of a task list -/

/-- A task of a list, from the session on in which it comes to its items. -/
structure Loop.OfEntry (l : Loop) (i : Interpreter) (levels index : Nat) (d : Document)
    (s : Session) : Prop extends l.OfTask where
  interpreter : l.interpreter = i
  inner : l.inner = i.runTasks levels
  start : l.start = s
  parsed : Definition.parse index d = .ok l.task

/-- An item that comes to what its task does: it is run and wanted, and its layer of environment
entries and its variables can be rendered. `site` is the session in which the task does it. -/
structure Loop.Reaches (l : Loop) (k : Nat) (layer : Option Fields) (site : Session) : Prop where
  run : k < l.count
  wanted : (isWanted l.task (l.scope k)).1 = .ok true
  rendered : (layerOf l.task (l.scope k)).1 = .ok layer
  site : ∃ vars, (renderVars l.task.label l.task.vars ((l.scope k).pushed layer)).1 = .ok vars ∧
    site = ((l.scope k).pushed layer).bound vars

/-- A call of a plugin inside a run. -/
structure Invocation where
  /-- The task that names the plugin. -/
  task : Definition
  plugin : Plugin
  /-- The arguments as the task has them. -/
  args : Document
  /-- The nanoseconds that the plugin may take. -/
  limit : Option Nat
  call : Plugin.Call
  /-- The session in which the plugin is called. -/
  site : Session
  /-- The layers of the tasks around the call, outermost first. -/
  layers : List Fields

/-- The same call, with one task more around it. -/
def Invocation.inside (v : Invocation) (layer : Option Fields) : Invocation :=
  { v with layers := layer.toList ++ v.layers }

/-- The calls that a list of tasks comes to, from a place in it on, when lists are inside lists down to
a number of levels. -/
inductive Invokes (i : Interpreter) : Nat → Nat → List Document → Session → Invocation → Prop where
  | later {levels index : Nat} {d : Document} {rest : List Document} {s mid : Session}
      {v : Invocation}
      (first : i.runEntry (i.runTasks levels) index d s = (.ok (), mid))
      (others : Invokes i (levels + 1) (index + 1) rest mid v) :
      Invokes i (levels + 1) index (d :: rest) s v
  | call {levels index k : Nat} {d : Document} {rest : List Document} {s site : Session} {l : Loop}
      {layer : Option Fields} {p : Plugin} {args ready : Document} {limit : Option Nat}
      (entry : l.OfEntry i levels index d s) (reached : l.Reaches k layer site)
      (action : l.action = .call p args) (arguments : (argsOf l.task.label p args site).1 = .ok ready)
      (limited : (i.limitOf l.task site).1 = .ok limit) :
      Invokes i (levels + 1) index (d :: rest) s
        ⟨l.task, p, args, limit, callOf l.task site.context ready, site, layer.toList⟩
  | block {levels index k : Nat} {d : Document} {rest tasks : List Document} {s site : Session}
      {l : Loop} {layer : Option Fields} {v : Invocation}
      (entry : l.OfEntry i levels index d s) (reached : l.Reaches k layer site)
      (action : l.action = .block tasks) (inside : Invokes i levels 0 tasks site v) :
      Invokes i (levels + 1) index (d :: rest) s (v.inside layer)
  | inclusion {levels index k : Nat} {d file : Document} {rest tasks : List Document}
      {s site mid : Session} {l : Loop} {layer : Option Fields} {v : Invocation}
      (entry : l.OfEntry i levels index d s) (reached : l.Reaches k layer site)
      (action : l.action = .inclusion file)
      (included : i.included l.task.label file site = (.ok tasks, mid))
      (inside : Invokes i levels 0 tasks mid v) :
      Invokes i (levels + 1) index (d :: rest) s (v.inside layer)

/-! ## Calls that a journal tells -/

/-- Whether of all calls that a journal tells since an earlier state of it something is so. It may
depend on what the journal told before the call. -/
inductive Told (C : List Event → String → Fields → Prop) (start : List Event) : List Event → Prop
  | nil : Told C start start
  | cons {event : Event} {journal : List Event} (earlier : Told C start journal)
      (called : ∀ plugin environment, event = .called plugin environment →
        C journal plugin environment) : Told C start (event :: journal)

namespace Told

variable {C C' : List Event → String → Fields → Prop} {start mid journal : List Event}

/-- What is so of the calls before and after a state in between is so of all. -/
theorem trans (hfirst : Told C start mid) (hnext : Told C mid journal) : Told C start journal := by
  -- By induction on what was told after the state in between.
  induction hnext with
  | nil => exact hfirst
  | cons _ called ih => exact .cons ih called

/-- Calls may be told less of. -/
theorem mono (h : Told C start journal)
    (himp : ∀ before plugin environment, C before plugin environment →
      C' before plugin environment) : Told C' start journal := by
  induction h with
  | nil => exact .nil
  | cons _ called ih =>
    exact .cons ih fun plugin environment h => himp _ _ _ (called plugin environment h)

/-- What was told since then was added to what was told before. -/
theorem suffix (h : Told C start journal) : start <:+ journal := by
  induction h with
  | nil => exact List.suffix_refl _
  | cons _ _ ih => exact ih.trans (List.suffix_cons ..)

/-- What is told of a call that was noted since then. -/
theorem of_called (h : Told C start journal) {before : List Event} {plugin : String}
    {environment : Fields} (hstart : start <:+ before)
    (hcalled : .called plugin environment :: before <:+ journal) : C before plugin environment := by
  induction h with
  | nil =>
    -- The call would have been noted before.
    have hlength := (hcalled.trans hstart).length_le
    rw [List.length_cons] at hlength
    omega
  | cons _ called ih =>
    rcases List.suffix_cons_iff.mp hcalled with hlast | hearlier
    -- It is the last event of the journal, or one before it.
    · obtain ⟨hevent, rfl⟩ := List.cons.inj hlast
      exact called _ _ hevent.symm
    · exact ih hearlier

variable {α β : Type} {s : Session}

/-- What only reads tells nothing. -/
theorem readsOnly {act : Run α} (hact : ReadsOnly act) : Told C s.journal (act s).2.journal := by
  rw [hact s]
  exact .nil

/-- What is told of a sequence is what its first part tells and then what follows tells. -/
theorem bind {act : Run α} {next : α → Run β} (hact : Told C start (act s).2.journal)
    (hnext : ∀ x mid, act s = (.ok x, mid) → Told C mid.journal (next x mid).2.journal) :
    Told C start ((act >>= next) s).2.journal := by
  rw [bind_apply]
  generalize hresult : act s = result at hact
  obtain ⟨(e | x), mid⟩ := result
  · exact hact
  · exact hact.trans (hnext x mid hresult)

/-- If the first part only reads, what follows begins where the sequence began. -/
theorem bind_readsOnly {act : Run α} {next : α → Run β} (hact : ReadsOnly act)
    (hnext : ∀ x, (act s).1 = .ok x → Told C s.journal (next x s).2.journal) :
    Told C s.journal ((act >>= next) s).2.journal := by
  refine bind (readsOnly hact) fun x mid hresult => ?_
  obtain rfl := hact.eq hresult
  exact hnext x (congrArg Prod.fst hresult)

end Told

/-- Whether something calls no plugin. -/
def Silent {α : Type} (act : Run α) : Prop :=
  ∀ (C : List Event → String → Fields → Prop) (s : Session), Told C s.journal (act s).2.journal

namespace Silent

variable {α β : Type}

theorem readsOnly {act : Run α} (hact : ReadsOnly act) : Silent act :=
  fun _ _ => .readsOnly hact

theorem bind {act : Run α} {next : α → Run β} (hact : Silent act)
    (hnext : ∀ x, Silent (next x)) : Silent (act >>= next) :=
  fun C s => .bind (hact C s) fun x mid _ => hnext x C mid

theorem change (f : Context → Context) : Silent (Run.change f) := fun _ _ => .nil

theorem note {event : Event} (h : ∀ plugin environment, event ≠ .called plugin environment) :
    Silent (Run.note event) :=
  fun _ _ => .cons .nil fun plugin environment hevent => absurd hevent (h plugin environment)

end Silent

namespace Interpreter

variable (i : Interpreter)

/-- Merging facts calls no plugin. -/
theorem silent_adopt (label : String) (result : Document) : Silent (adopt label result) := by
  unfold adopt
  split
  · refine .bind (.readsOnly (readsOnly_lift _)) fun policy => ?_
    -- No facts, null, a mapping to merge, or something that is no mapping.
    split
    · exact .readsOnly (readsOnly_pure _)
    · exact .readsOnly (readsOnly_pure _)
    · exact .bind (.change _) fun _ => .readsOnly (readsOnly_pure _)
    · exact .bind (.readsOnly (readsOnly_throw _)) fun _ => .readsOnly (readsOnly_pure _)
  · exact .readsOnly (readsOnly_pure _)

/-- What becomes of a call when its plugin has ended is no call. -/
theorem silent_settle (t : Definition) (p : Plugin) (limit : Option Nat) (ending : Plugin.Ending) :
    Silent (settle t p limit ending) := by
  cases ending with
  | finished result facts =>
    cases result with
    | ok result => exact .bind (.change _) fun _ => silent_adopt t.label result
    | error e => exact .readsOnly (readsOnly_throw _)
  | crashed => exact .readsOnly (readsOnly_throw _)
  | endless => cases limit <;> exact .readsOnly (readsOnly_throw _)

/-- Reading the tasks of a file calls no plugin. -/
theorem silent_included (label : String) (file : Document) : Silent (i.included label file) := by
  refine .bind (.readsOnly (readsOnly_render _ _)) fun d => ?_
  split
  · refine .bind (.note nofun) fun _ => ?_
    -- The file is noted as consulted, and as included if it holds tasks.
    split
    · exact .bind (.note nofun) fun _ => .readsOnly (readsOnly_pure _)
    · exact .readsOnly (readsOnly_throw _)
  · exact .readsOnly (readsOnly_throw _)

/-- Registering a result calls no plugin. -/
theorem silent_conclude (t : Definition) (reports : List Fields) (e : Option Error) :
    Silent (conclude t reports e) := by
  intro C s
  rw [conclude_apply]
  rcases registerNameOf_cases t s with hname | hname | ⟨name, hname⟩ | ⟨name, hname⟩ |
    ⟨why, -, hname⟩ <;> rw [hname]
  -- No name, a note that it was left out, a registration, and the two errors of a name.
  · exact .nil
  · exact .cons .nil nofun
  · exact .cons .nil nofun
  · exact .nil
  · exact .nil

/-! ### What calls plugins -/

variable {inner : List Document → Run Unit} {t : Definition} {s : Session}
  {C : List Event → String → Fields → Prop}

/-- A plugin is called once, if its arguments and its limit can be found. -/
theorem told_callPlugin {p : Plugin} {args : Document}
    (h : ∀ ready limit, (argsOf t.label p args s).1 = .ok ready → (i.limitOf t s).1 = .ok limit →
      C s.journal p.name s.context.environmentEntries) :
    Told C s.journal (i.callPlugin t p args s).2.journal := by
  refine .bind_readsOnly (readsOnly_argsOf _ _ _) fun ready hready => ?_
  refine .bind_readsOnly (readsOnly_limitOf i t) fun limit hlimit => ?_
  -- This is the only event of the call; what comes after it is silent.
  have hcalled : Told C s.journal (.called p.name s.context.environmentEntries :: s.journal) := by
    refine .cons .nil ?_
    rintro _ _ ⟨⟩
    exact h ready limit hready hlimit
  exact hcalled.trans (silent_settle t p limit _ C (s.noted _))

/-- What is told of the lists of a task and of its own call is told of what it does. -/
theorem told_perform {action : Action}
    (hcall : ∀ p args ready limit, action = .call p args →
      (argsOf t.label p args s).1 = .ok ready → (i.limitOf t s).1 = .ok limit →
        C s.journal p.name s.context.environmentEntries)
    (hblock : ∀ tasks, action = .block tasks → Told C s.journal (inner tasks s).2.journal)
    (hinclusion : ∀ file tasks mid, action = .inclusion file →
      i.included t.label file s = (.ok tasks, mid) → Told C mid.journal (inner tasks mid).2.journal) :
    Told C s.journal (i.perform inner t action s).2.journal := by
  cases action with
  | call p args => exact i.told_callPlugin fun ready limit => hcall p args ready limit rfl
  | block tasks => exact .bind (hblock tasks rfl) fun _ _ _ => .nil
  | inclusion file =>
    -- The list is run in the session after the file was read.
    refine .bind (i.silent_included t.label file C s) fun tasks mid hincluded => ?_
    exact .bind (hinclusion file tasks mid rfl hincluded) fun _ _ _ => .nil

/-- Calls of what a task does are told as in the session with its layer and its variables. -/
theorem told_carryOut {action : Action}
    (h : ∀ layer vars, (layerOf t s).1 = .ok layer →
      (renderVars t.label t.vars (s.pushed layer)).1 = .ok vars →
        Told C s.journal (i.perform inner t action ((s.pushed layer).bound vars)).2.journal) :
    Told C s.journal (i.carryOut inner t action s).2.journal := by
  refine .bind_readsOnly (readsOnly_layerOf t) fun layer hlayer => ?_
  rw [journal_withEnvironment, ← s.journal_pushed layer]
  refine .bind_readsOnly (readsOnly_renderVars _ _) fun vars hvars => ?_
  rw [(withBindings_apply _ _ _).2, s.journal_pushed layer]
  exact h layer vars hlayer hvars

/-- A task that is not wanted tells nothing. -/
theorem told_attempt {action : Action}
    (h : (isWanted t s).1 = .ok true → Told C s.journal (i.carryOut inner t action s).2.journal) :
    Told C s.journal (i.attempt inner t action s).2.journal := by
  refine .bind_readsOnly (readsOnly_isWanted t) fun wanted hwanted => ?_
  cases wanted with
  | false => exact .nil
  | true =>
    show Told C s.journal ((some <$> i.carryOut inner t action) s).2.journal
    rw [journal_map]
    exact h hwanted

/-- After what is done for an item, at most a failure and what becomes of it are told. -/
theorem told_runItem {start : List Event} {action : Action} {ignore : Bool} {index : Nat}
    {item : Option Document}
    (h : Told C start (i.attempt inner t action (s.bound (itemBindings t item index))).2.journal) :
    Told C start (i.runItem inner t action ignore index item s).2.journal := by
  rw [← (withBindings_apply _ _ _).2] at h
  rw [runItem_apply]
  generalize withBindings (i.attempt inner t action) (itemBindings t item index) s = result at h ⊢
  obtain ⟨(e | (_ | done)), mid⟩ := result
  -- The failure alone, or the failure and that it was ignored.
  · cases hends : e.propagates ignore with
    | true =>
      simp only [hends, if_true]
      exact .cons h nofun
    | false =>
      simp only [hends, Bool.false_eq_true, if_false]
      exact .cons (.cons h nofun) nofun
  · exact .cons h nofun
  · exact h

end Interpreter

/-- What is told of every item that is reached is told of the first items together. -/
theorem Loop.told_before {l : Loop} {C : List Event → String → Fields → Prop}
    (h : ∀ k layer site, l.Reaches k layer site →
      Told C site.journal (l.interpreter.perform l.inner l.task l.action site).2.journal)
    {k : Nat} (hk : k ≤ l.count) : Told C l.start.journal (l.before k).journal := by
  -- By induction on the number of items.
  induction k with
  | zero => exact .nil
  | succ k ih =>
    -- Binding the item tells nothing, so what is told of it begins where the one before it ended.
    have hscope : (l.scope k).journal = (l.before k).journal := Session.journal_bound ..
    refine (ih (by omega)).trans (l.interpreter.told_runItem ?_)
    rw [← hscope]
    refine l.interpreter.told_attempt fun hwanted => ?_
    refine l.interpreter.told_carryOut fun layer vars hlayer hvars => ?_
    have hreached : l.Reaches k layer (((l.scope k).pushed layer).bound vars) :=
      ⟨hk, hwanted, hlayer, vars, hvars, rfl⟩
    have htold := h k layer _ hreached
    rwa [Session.journal_bound, Session.journal_pushed] at htold

namespace Interpreter

variable (i : Interpreter) {inner : List Document → Run Unit} {t : Definition} {s : Session}
  {C : List Event → String → Fields → Prop}

/-- What is told of the items of a task is told of the task. -/
theorem told_runTask
    (h : ∀ l : Loop, l.interpreter = i → l.inner = inner → l.task = t → l.start = s → l.OfTask →
      Told C s.journal (l.before l.count).journal) :
    Told C s.journal (i.runTask inner t s).2.journal := by
  refine .bind_readsOnly (readsOnly_lift _) fun action haction => ?_
  refine .bind_readsOnly (consults_ignoresErrors t).readsOnly fun ignore hignore => ?_
  refine .bind_readsOnly (consults_itemsOf t).readsOnly fun items hitems => ?_
  -- The reading of the task makes the loop that its items run in.
  let l : Loop := ⟨i, inner, t, action, ignore, items, s⟩
  have hof : l.OfTask := ⟨haction, hignore, hitems⟩
  have hloop := h l rfl rfl rfl rfl hof
  show Told C s.journal (conclude t (runItems l.run 0 l.items l.start).1.1
    (runItems l.run 0 l.items l.start).1.2 (runItems l.run 0 l.items l.start).2).2.journal
  rw [l.runItems_eq]
  exact hloop.trans (silent_conclude t l.reports l.error C _)

/-- Whether a call that a journal tells is one of a list of tasks. -/
def Foretold (levels index : Nat) (tasks : List Document) (s : Session) (before : List Event)
    (plugin : String) (environment : Fields) : Prop :=
  ∃ v, Invokes i levels index tasks s v ∧ v.site.journal = before ∧ v.plugin.name = plugin ∧
    v.call.environment = environment

section Lists

variable {levels : Nat} (hinner : ∀ tasks s,
  Told (i.Foretold levels 0 tasks s) s.journal (i.runTasks levels tasks s).2.journal)

include hinner

/-- A call that a task of a list tells is one of the list. -/
theorem told_runEntry (index : Nat) (d : Document) (rest : List Document) (s : Session) :
    Told (i.Foretold (levels + 1) index (d :: rest) s) s.journal
      (i.runEntry (i.runTasks levels) index d s).2.journal := by
  have htask : Told (i.Foretold (levels + 1) index (d :: rest) s) s.journal
      ((liftM (Definition.parse index d) >>= i.runTask (i.runTasks levels)) s).2.journal := by
    refine .bind_readsOnly (readsOnly_lift _) fun t hparsed => i.told_runTask ?_
    rintro l rfl hl rfl rfl hof
    have hentry : l.OfEntry l.interpreter levels index d l.start := ⟨hof, rfl, hl, rfl, hparsed⟩
    refine l.told_before (fun k layer site hreached => ?_) (Nat.le_refl _)
    rw [hl]
    -- A call inside a list of the task gets the layer of the item around it.
    refine l.interpreter.told_perform (fun p args ready limit haction harguments hlimited => ?_)
      (fun tasks haction => ?_) (fun file tasks mid haction hincluded => ?_)
    · exact ⟨_, .call hentry hreached haction harguments hlimited, rfl, rfl, rfl⟩
    · refine (hinner tasks site).mono ?_
      rintro _ _ _ ⟨v, hv, hjournal, hplugin, henvironment⟩
      exact ⟨_, .block hentry hreached haction hv, hjournal, hplugin, henvironment⟩
    · refine (hinner tasks mid).mono ?_
      rintro _ _ _ ⟨v, hv, hjournal, hplugin, henvironment⟩
      exact ⟨_, .inclusion hentry hreached haction hincluded hv, hjournal, hplugin, henvironment⟩
  -- A failure that is noted at the end is no call.
  rw [runEntry, noteFailure]
  generalize (liftM (Definition.parse index d) >>= i.runTask (i.runTasks levels)) s = result at htask
  obtain ⟨(e | _), mid⟩ := result
  · refine .cons htask ?_
    rintro _ _ ⟨⟩
  · exact htask

/-- The same of the tasks from a place on. -/
theorem told_runFrom (index : Nat) (tasks : List Document) (s : Session) :
    Told (i.Foretold (levels + 1) index tasks s) s.journal
      (i.runFrom (i.runTasks levels) index tasks s).2.journal := by
  induction tasks generalizing index s with
  | nil => exact .nil
  | cons d rest ih =>
    refine .bind (i.told_runEntry hinner index d rest s) fun _ mid hfirst => ?_
    -- The calls of the later tasks are calls of the list, in the session they begin in.
    refine (ih (index + 1) mid).mono ?_
    rintro _ _ _ ⟨v, hv, hcall⟩
    exact ⟨v, .later hfirst hv, hcall⟩

end Lists

/-- **Every call that the journal of a run tells is one of its task list**, at the place where the
journal tells it. -/
theorem told_runTasks (levels : Nat) (tasks : List Document) (s : Session) :
    Told (i.Foretold levels 0 tasks s) s.journal (i.runTasks levels tasks s).2.journal := by
  -- By induction on the levels; with none left nothing is run.
  induction levels generalizing tasks s with
  | zero => exact .nil
  | succ levels ih => exact i.told_runFrom ih 0 tasks s

/-! ## Calls are told -/

/-- What was told of the first part is told of the whole. -/
theorem suffix_bind {α β : Type} {next : α → Run β}
    (hnext : ∀ x, Obeys (fun s _ after => s.journal <:+ after.journal) (next x)) (act : Run α)
    (s : Session) : (act s).2.journal <:+ ((act >>= next) s).2.journal := by
  rw [bind_apply]
  generalize act s = result
  obtain ⟨(e | x), mid⟩ := result
  · exact List.suffix_refl _
  · exact hnext x mid

/-- A failure that is noted takes nothing back. -/
theorem suffix_noteFailure {α : Type} (act : Run α) (s : Session) :
    (act s).2.journal <:+ (noteFailure act s).2.journal := by
  unfold noteFailure
  generalize act s = result
  obtain ⟨(e | x), mid⟩ := result
  · exact List.suffix_cons ..
  · exact List.suffix_refl _

/-- A plugin with its arguments and its limit at hand is called, and the journal tells it. -/
theorem suffix_callPlugin {p : Plugin} {args ready : Document} {limit : Option Nat}
    (hready : (argsOf t.label p args s).1 = .ok ready) (hlimit : (i.limitOf t s).1 = .ok limit) :
    .called p.name s.context.environmentEntries :: s.journal <:+
      (i.callPlugin t p args s).2.journal := by
  rw [callPlugin, bind_of_readsOnly (readsOnly_argsOf _ _ _) hready,
    bind_of_readsOnly (readsOnly_limitOf i t) hlimit]
  exact (silent_settle t p limit _ (fun _ _ _ => True) (s.noted _)).suffix

/-- The journal of an item that is carried out is that of what its task does. -/
theorem journal_carryOut {action : Action} {layer : Option Fields} {vars : List (String × Document)}
    (hlayer : (layerOf t s).1 = .ok layer)
    (hvars : (renderVars t.label t.vars (s.pushed layer)).1 = .ok vars) :
    (i.carryOut inner t action s).2.journal =
      (i.perform inner t action ((s.pushed layer).bound vars)).2.journal := by
  rw [carryOut, bind_of_readsOnly (readsOnly_layerOf t) hlayer, journal_withEnvironment,
    bind_of_readsOnly (readsOnly_renderVars _ _) hvars, (withBindings_apply _ _ _).2]

/-- The journal of an item that is wanted is that of carrying it out. -/
theorem journal_attempt {action : Action} (h : (isWanted t s).1 = .ok true) :
    (i.attempt inner t action s).2.journal = (i.carryOut inner t action s).2.journal := by
  rw [attempt, bind_of_readsOnly (readsOnly_isWanted t) h]
  exact journal_map ..

/-- What the first task of a list tells is told when the list has ended. -/
theorem suffix_runFrom (levels index : Nat) (d : Document) (rest : List Document) (s : Session) :
    (i.runEntry (i.runTasks levels) index d s).2.journal <:+
      (i.runFrom (i.runTasks levels) index (d :: rest) s).2.journal :=
  suffix_bind (fun _ => journal_law.runFrom i (journal_law.runTasks i levels) (index + 1) rest) _ s

end Interpreter

namespace Loop

variable {l : Loop} {i : Interpreter} {levels index j k : Nat} {d : Document} {s site : Session}
  {layer : Option Fields}

/-- The journal grows from item to item. -/
theorem OfEntry.suffix_before (h : l.OfEntry i levels index d s) (hjk : j ≤ k) :
    (l.before j).journal <:+ (l.before k).journal :=
  l.before_of_law journal_law (P := fun mid => (l.before j).journal <:+ mid.journal)
    (fun tasks => h.inner ▸ journal_law.runTasks i levels tasks)
    (fun hstep hmid => hmid.trans hstep) (fun hmid => hmid.trans (List.suffix_cons ..)) hjk
    (List.suffix_refl _)

/-- What the items of a task tell is told when the task has ended. -/
theorem OfEntry.suffix_runEntry (h : l.OfEntry i levels index d s) :
    (l.before l.count).journal <:+ (i.runEntry (i.runTasks levels) index d s).2.journal := by
  obtain ⟨hof, rfl, hinner, rfl, hparsed⟩ := h
  rw [← hinner]
  refine List.IsSuffix.trans ?_ (suffix_noteFailure _ l.start)
  rw [bind_lift hparsed, hof.runTask_apply]
  exact (silent_conclude l.task l.reports l.error (fun _ _ _ => True) _).suffix

/-- What a task does for an item begins after what was told before its list, and is told when the
list has ended. -/
theorem Reaches.suffix (h : l.Reaches k layer site) (hentry : l.OfEntry i levels index d s)
    (rest : List Document) :
    s.journal <:+ site.journal ∧
      (l.interpreter.perform l.inner l.task l.action site).2.journal <:+
        (i.runFrom (i.runTasks levels) index (d :: rest) s).2.journal := by
  obtain ⟨vars, hvars, hsite⟩ := h.site
  constructor
  · rw [hsite, Session.journal_bound, Session.journal_pushed, scope, Session.journal_bound,
      ← hentry.start]
    exact hentry.suffix_before (Nat.zero_le k)
  -- From the item to the loop, from the loop to the task, from the task to the list.
  · have hitem : (l.interpreter.perform l.inner l.task l.action site).2.journal <:+
        (l.before (k + 1)).journal := by
      rw [hsite, ← l.interpreter.journal_carryOut h.rendered hvars,
        ← l.interpreter.journal_attempt h.wanted]
      exact (l.interpreter.told_runItem (C := fun _ _ _ => True) .nil).suffix
    have htask := (hitem.trans (hentry.suffix_before h.run)).trans hentry.suffix_runEntry
    exact htask.trans (i.suffix_runFrom levels index d rest s)

end Loop

/-- **Every call of a task list is told** by the journal of its run. -/
theorem Invokes.told {i : Interpreter} {levels index : Nat} {tasks : List Document} {s : Session}
    {v : Invocation} (h : Invokes i (levels + 1) index tasks s v) :
    s.journal <:+ v.site.journal ∧
      .called v.plugin.name v.call.environment :: v.site.journal <:+
        (i.runFrom (i.runTasks levels) index tasks s).2.journal := by
  generalize hdepth : levels + 1 = depth at h
  induction h generalizing levels with
  -- The first task has ended, so what it told is in front of what the others tell.
  | @later n index d rest s mid v first others ih =>
    obtain rfl : levels = n := Nat.succ.inj hdepth
    obtain ⟨hbefore, htold⟩ := ih rfl
    have hfirst := journal_law.runEntry i (journal_law.runTasks i levels) index d s
    rw [first] at hfirst
    refine ⟨hfirst.trans hbefore, ?_⟩
    rw [runFrom, bind_apply, first]
    exact htold
  -- The call of the task itself.
  | @call n index k d rest s site l layer p args ready limit entry reached action arguments
      limited =>
    obtain rfl : levels = n := Nat.succ.inj hdepth
    obtain ⟨hbefore, htold⟩ := reached.suffix entry rest
    refine ⟨hbefore, List.IsSuffix.trans ?_ htold⟩
    rw [action, entry.interpreter]
    exact i.suffix_callPlugin arguments limited
  | @block n index k d rest tasks s site l layer v entry reached action inside ih =>
    obtain rfl : levels = n := Nat.succ.inj hdepth
    obtain ⟨hbefore, htold⟩ := reached.suffix entry rest
    cases levels with
    | zero =>
      -- A list with no level left comes to no call.
      cases inside
    | succ levels =>
      obtain ⟨hsite, hinside⟩ := ih rfl
      refine ⟨hbefore.trans hsite, List.IsSuffix.trans ?_ htold⟩
      rw [action, entry.inner]
      exact hinside.trans (suffix_bind (fun _ => journal_law.pure _) _ site)
  | @inclusion n index k d file rest tasks s site mid l layer v entry reached action included
      inside ih =>
    obtain rfl : levels = n := Nat.succ.inj hdepth
    obtain ⟨hbefore, htold⟩ := reached.suffix entry rest
    -- Before the list of the file is run, the session notes that it was read.
    have hincluded := journal_law.included i l.task.label file site
    rw [included] at hincluded
    cases levels with
    | zero => cases inside
    | succ levels =>
      obtain ⟨hsite, hinside⟩ := ih rfl
      refine ⟨hbefore.trans (hincluded.trans hsite), List.IsSuffix.trans ?_ htold⟩
      rw [action, entry.inner, entry.interpreter, perform, bind_apply, included]
      exact hinside.trans (suffix_bind (fun _ => journal_law.pure _) _ mid)

end SoftwareCensus.Tasks
