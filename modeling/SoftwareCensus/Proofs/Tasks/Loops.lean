import SoftwareCensus.Proofs.Tasks.Scoping

/-!
# Loops

A task is run for its items one after another, up to the first whose error ends the list. What is run
for an item, and in which session, is said here without the recursion over the items: the session
before an item is the one that the items before it leave, whatever comes of them.

## Main results

* `Loop.runItems_eq` : the items that are run, what is reported of them and what they leave
* `Loop.ended` : where the items end that are run
* `Loop.reported` : what is reported of an item, by what comes of it
* `loop_of_plugin_task` : what a task that calls a plugin for every item of a list registers and leaves
-/

namespace SoftwareCensus.Tasks

open Run Interpreter

/-! ## Bindings -/

/-- The session in which bindings were made one after another. -/
def Session.bound (s : Session) (bindings : List (String × Document)) : Session :=
  bindings.foldl (fun s entry => s.changed (·.set entry.1 entry.2)) s

namespace Context

/-- A binding that is undone at once leaves nothing. -/
theorem rebind_set {c : Context} (h : c.overlay.Ascending) (name : String) (d : Document) :
    (c.set name d).rebind name (c.overlay.get? name) = c := by
  have hset : (c.set name d).overlay.Ascending := h.insert name d
  have hoverlay : ((c.set name d).rebind name (c.overlay.get? name)).overlay = c.overlay := by
    refine (ascending_rebind hset ..).ext h fun key => ?_
    rw [get?_rebind hset]
    -- The key has its old value back, and the others never lost theirs.
    by_cases hkey : key = name
    · rw [if_pos hkey, hkey]
    · rw [if_neg hkey]
      exact (Fields.get?_insert ..).trans (if_neg hkey)
  cases hbefore : c.overlay.get? name <;> rw [hbefore] at hoverlay <;>
    exact congrArg (fun overlay => { c with overlay }) hoverlay

end Context

namespace Run

variable {α β : Type} {act : Run α} {s : Session}

/-- What only reads and comes to a result is followed by what is done with the result. -/
theorem bind_of_readsOnly (hact : ReadsOnly act) {x : α} (h : (act s).1 = .ok x)
    (next : α → Run β) : (act >>= next) s = next x s := by
  have hmid := hact s
  rw [bind_apply]
  generalize act s = result at h hmid ⊢
  obtain ⟨outcome, mid⟩ := result
  obtain rfl : outcome = .ok x := h
  obtain rfl : mid = s := hmid
  rfl

/-- An outcome that is there already is followed by what is done with it. -/
theorem bind_lift {outcome : Except Error α} {x : α} (h : outcome = .ok x) (next : α → Run β) :
    ((liftM outcome : Run α) >>= next) s = next x s :=
  bind_of_readsOnly (readsOnly_lift outcome) h next

/-- What is done under bindings comes to what it comes to, and tells what it tells, in the session in
which they were made. -/
theorem withBindings_apply (act : Run α) (bindings : List (String × Document)) (s : Session) :
    (withBindings act bindings s).1 = (act (s.bound bindings)).1 ∧
      (withBindings act bindings s).2.journal = (act (s.bound bindings)).2.journal := by
  -- By induction on the bindings, which are made from the outermost on.
  induction bindings generalizing s with
  | nil => exact ⟨rfl, rfl⟩
  | cons entry rest ih => exact ih (s.changed (·.set entry.1 entry.2))

/-- What changes nothing under bindings changes nothing. -/
theorem withBindings_of_unchanged {bindings : List (String × Document)}
    (hs : s.context.overlay.Ascending) (h : (act (s.bound bindings)).2 = s.bound bindings) :
    (withBindings act bindings s).2 = s := by
  induction bindings generalizing s with
  | nil => exact h
  | cons entry rest ih =>
    -- What is inside the first binding leaves the session in which that was made.
    have hrest := ih (s := s.changed (·.set entry.1 entry.2)) (hs.insert entry.1 entry.2) h
    show (withBindings act rest (s.changed (·.set entry.1 entry.2))).2.changed
      (·.rebind entry.1 (s.context.overlay.get? entry.1)) = s
    rw [hrest]
    exact congrArg (fun c => { s with context := c }) (Context.rebind_set hs entry.1 entry.2)

end Run

namespace ItemsObey

variable {R : Session → Option Error → Session → Prop} {β : Type}
  {act : StateM Session (β × Option Error)} {s : Session}

/-- If no error ends the items, the law holds without one. -/
theorem of_none (h : ItemsObey R act) (hnone : (act s).1.2 = none) : R s none (act s).2 := by
  have hs := h s
  rwa [hnone] at hs

/-- If an error ends the items, the law held of it before it was noted. -/
theorem of_some (h : ItemsObey R act) {e : Error} (hsome : (act s).1.2 = some e) :
    ∃ mid, R s (some e) mid ∧ (act s).2 = mid.noted (.failed e) := by
  have hs := h s
  rwa [hsome] at hs

end ItemsObey

/-- A task that is run for some items from a session on. A task without a loop has one item, `none`. -/
structure Loop where
  interpreter : Interpreter
  /-- Runs the lists of tasks inside. -/
  inner : List Document → Run Unit
  task : Definition
  action : Action
  /-- Whether errors that may be ignored are. -/
  ignore : Bool
  items : List (Option Document)
  start : Session

namespace Loop

variable (l : Loop)

/-! ## Items one after another -/

/-- Runs the task for one item. -/
def run : Nat → Option Document → StateM Session (Fields × Option Error) :=
  l.interpreter.runItem l.inner l.task l.action l.ignore

/-- The item at a place. -/
def item (k : Nat) : Option Document := l.items[k]?.join

/-- The session before an item, when those before it were run one after another. -/
def before : Nat → Session
  | 0 => l.start
  | k + 1 => (l.run k (l.item k) (before k)).2

/-- What is reported of an item. -/
def report (k : Nat) : Fields := (l.run k (l.item k) (l.before k)).1.1

/-- The error of an item that ends the list. -/
def error? (k : Nat) : Option Error := (l.run k (l.item k) (l.before k)).1.2

/-- The first item whose error ends the list. -/
def stop? : Option Nat := (List.range l.items.length).find? fun k => (l.error? k).isSome

/-- How many items are run: all, or those up to the first whose error ends the list. -/
def count : Nat := match l.stop? with
  | some k => k + 1
  | none => l.items.length

/-- The error that ends the list. -/
def error : Option Error := l.stop?.bind l.error?

/-- What is reported of the items that are run. -/
def reports : List Fields := (List.range l.count).map l.report

/-- Running an item gives its report, its error and the session before the next item. -/
theorem run_before (k : Nat) :
    l.run k (l.item k) (l.before k) = ((l.report k, l.error? k), l.before (k + 1)) := rfl

/-- From an item on, the items are run up to the first whose error ends the list. -/
theorem runItems_drop {k : Nat} (hk : k ≤ l.items.length) :
    runItems l.run k (l.items.drop k) (l.before k) =
      match (List.range' k (l.items.length - k)).find? fun j => (l.error? j).isSome with
      | some j => (((List.range' k (j + 1 - k)).map l.report, l.error? j), l.before (j + 1))
      | none => (((List.range' k (l.items.length - k)).map l.report, none),
          l.before l.items.length) := by
  induction hrest : l.items.length - k generalizing k with
  -- No item is left.
  | zero =>
    obtain rfl : k = l.items.length := by omega
    rw [List.drop_length]
    rfl
  | succ rest ih =>
    have hlt : k < l.items.length := by omega
    -- The next item is there, and is run in the session before it.
    have hitem : l.items[k] = l.item k := by
      rw [item, List.getElem?_eq_getElem hlt]
      rfl
    rw [List.drop_eq_getElem_cons hlt, hitem, runItems_cons, run_before, List.range'_succ]
    cases herror : l.error? k with
    -- Its error ends the list.
    | some e =>
      rw [List.find?_cons_of_pos (by simp [herror])]
      simp [herror]
    | none =>
      -- It has none, and the rest is as the induction says.
      have hlater := ih hlt (by omega)
      rw [List.find?_cons_of_neg (by simp [herror])]
      dsimp only
      rw [hlater]
      cases hfind : (List.range' (k + 1) rest).find? fun j => (l.error? j).isSome with
      | none => rfl
      | some j =>
        -- The items of the rest come after this one.
        have hj : k + 1 ≤ j := (List.mem_range'_1.mp (List.mem_of_find?_eq_some hfind)).1
        have hcount : j + 1 - k = j + 1 - (k + 1) + 1 := by omega
        dsimp only
        rw [hcount, List.range'_succ, List.map_cons]

/-- **The items that are run**, what is reported of them, the error that ends them, and what they
leave. -/
theorem runItems_eq :
    runItems l.run 0 l.items l.start = ((l.reports, l.error), l.before l.count) := by
  have hdrop := l.runItems_drop (Nat.zero_le _)
  rw [Nat.sub_zero, ← List.range_eq_range'] at hdrop
  rw [← l.items.drop_zero]
  refine hdrop.trans ?_
  unfold reports error count
  rw [stop?]
  -- The items end at the first error, or are all run.
  cases (List.range l.items.length).find? fun k => (l.error? k).isSome with
  | none => rfl
  | some k =>
    dsimp only
    rw [Nat.sub_zero, ← List.range_eq_range']
    rfl

/-- Where the items end that are run. -/
structure Ended : Prop where
  earlier : ∀ k, k + 1 < l.count → l.error? k = none
  /-- Without an error, no item is left out. -/
  through : l.error = none → l.count = l.items.length ∧ ∀ k < l.count, l.error? k = none
  stopped : ∀ e, l.error = some e →
    ∃ k < l.items.length, l.count = k + 1 ∧ l.error? k = some e

/-- **Items are run up to the first whose error ends the list.** -/
theorem ended : l.Ended := by
  have hcount : l.count = l.stop?.elim l.items.length (· + 1) := by
    unfold count
    cases l.stop? <;> rfl
  have herror : l.error = l.stop?.bind l.error? := rfl
  cases hstop : l.stop? with
  -- No item has an error, so all are run.
  | none =>
    have hnone : ∀ k < l.items.length, l.error? k = none := by
      have hfind := List.find?_range_eq_none.mp hstop
      simpa using hfind
    rw [hstop] at hcount herror
    change l.count = l.items.length at hcount
    exact {
      earlier := fun k hk => hnone k (by omega)
      through := fun _ => ⟨hcount, fun k hk => hnone k (hcount ▸ hk)⟩
      stopped := fun e he => nomatch he.symm.trans herror }
  -- The first item with an error is the last that is run.
  | some k =>
    obtain ⟨hends, hmem, hfirst⟩ := List.find?_range_eq_some.mp hstop
    obtain ⟨e, he⟩ := Option.isSome_iff_exists.mp hends
    rw [hstop] at hcount herror
    change l.count = k + 1 at hcount
    have hlast : l.error = some e := herror.trans he
    exact {
      earlier := fun j hj => by
        have hnone := hfirst j (by omega)
        simpa using hnone
      through := fun hdone => nomatch hdone.symm.trans hlast
      stopped := fun why hwhy =>
        ⟨k, List.mem_range.mp hmem, hcount, he.trans (hlast.symm.trans hwhy)⟩ }

/-! ## One item -/

/-- The session in which it is found out whether a task is wanted for an item. -/
def scope (k : Nat) : Session := (l.before k).bound (itemBindings l.task (l.item k) k)

/-- What comes of an item: a result, nothing if it is skipped, or an error. -/
def outcome (k : Nat) : Except Error (Option Document) :=
  (l.interpreter.attempt l.inner l.task l.action (l.scope k)).1

/-- What is reported of an item that is run, and what it leaves. -/
structure Reported (k : Nat) : Prop where
  /-- The error of the item ends the list, unless it is ignored. -/
  error : l.error? k = (failure? (l.outcome k)).filter (·.propagates l.ignore)
  failed : ∀ e, l.outcome k = .error e → (l.report k).get? "failed" = some (.bool true)
  skipped : (isWanted l.task (l.scope k)).1 = .ok false →
    (l.report k).get? "skipped" = some (.bool true)
  /-- An item that is skipped leaves the context as it was. -/
  untouched : (isWanted l.task (l.scope k)).1 = .ok false →
    (l.before (k + 1)).context = (l.before k).context
  /-- Of a task that is skipped nothing is looked at but its name, its condition and what its loop
  binds: a task with other arguments, variables and environment entries comes to the same. -/
  unread : (isWanted l.task (l.scope k)).1 = .ok false → ∀ (t : Definition) (action : Action),
    t.label = l.task.label → t.condition = l.task.condition → t.loopControl = l.task.loopControl →
      l.interpreter.runItem l.inner t action l.ignore k (l.item k) (l.before k) =
        ((l.report k, none), l.before (k + 1))

end Loop

namespace Interpreter

variable (i : Interpreter) {t : Definition}

/-- What is not wanted is not done. -/
theorem attempt_of_unwanted (inner : List Document → Run Unit) (action : Action) {s : Session}
    (h : (isWanted t s).1 = .ok false) : i.attempt inner t action s = (.ok none, s) := by
  rw [attempt, bind_of_readsOnly (readsOnly_isWanted t) h]
  rfl

/-- A task that is not wanted for an item is reported to be skipped, and nothing else happens. -/
theorem runItem_of_unwanted (inner : List Document → Run Unit) {s : Session}
    (hs : s.context.overlay.Ascending) (action : Action) (ignore : Bool) (index : Nat)
    (item : Option Document)
    (h : (isWanted t (s.bound (itemBindings t item index))).1 = .ok false) :
    i.runItem inner t action ignore index item s =
      ((reportSkipped (reportStart t item), none), s.noted (.skipped t.label index)) := by
  -- The condition is found out under the bindings of the item, and only they are to be undone.
  have hattempt := attempt_of_unwanted i inner action h
  have houtcome := (withBindings_apply (i.attempt inner t action) (itemBindings t item index) s).1
  have hunchanged : (withBindings (i.attempt inner t action) (itemBindings t item index) s).2 = s :=
    withBindings_of_unchanged hs (by rw [hattempt])
  rw [hattempt] at houtcome
  rw [runItem_apply]
  generalize withBindings (i.attempt inner t action) (itemBindings t item index) s = result
    at houtcome hunchanged ⊢
  obtain ⟨outcome, mid⟩ := result
  obtain rfl : outcome = .ok none := houtcome
  obtain rfl : mid = s := hunchanged
  rfl

end Interpreter

namespace Loop

variable (l : Loop)

/-- What every step of an item keeps is so before every later item. -/
theorem before_of_law {R : Session → Option Error → Session → Prop} (law : RunLaw R)
    (hinner : ∀ tasks, Obeys R (l.inner tasks)) {P : Session → Prop}
    (hkept : ∀ {s outcome after}, R s outcome after → P s → P after)
    (hnoted : ∀ {s e}, P s → P (s.noted (.failed e))) {j k : Nat} (hjk : j ≤ k)
    (hj : P (l.before j)) : P (l.before k) := by
  -- By induction on the items between the two.
  induction k, hjk using Nat.le_induction with
  | base => exact hj
  | succ k _ ih =>
    have hitem := law.runItem l.interpreter l.task hinner l.action l.ignore k (l.item k)
    cases herror : l.error? k with
    | none => exact hkept (hitem.of_none herror) ih
    -- An error is noted after the item, and the note keeps the property, too.
    | some e =>
      obtain ⟨mid, hmid, hafter⟩ := hitem.of_some herror
      rw [before, run, hafter]
      exact hnoted (hkept hmid ih)

/-- The bindings keep their order from item to item. -/
theorem ascending_before (hinner : ∀ tasks,
    Obeys (fun s _ after => s.context.overlay.Ascending → Framed s after) (l.inner tasks))
    (hstart : l.start.context.overlay.Ascending) (k : Nat) :
    (l.before k).context.overlay.Ascending :=
  l.before_of_law framing_law hinner (P := fun s => s.context.overlay.Ascending)
    (fun hframed h => (hframed h).ascending) id (Nat.zero_le k) hstart

/-- A report of an item that was skipped says so. -/
theorem get?_reportSkipped (report : Fields) :
    (reportSkipped report).get? "skipped" = some (.bool true) := by
  rw [reportSkipped, Fields.get?_extend (by decide)]
  rfl

/-- A report of an item that failed says so. -/
theorem get?_reportFailed (report : Fields) (e : Error) :
    (reportFailed report e).get? "failed" = some (.bool true) := by
  -- The two entries have different keys.
  have hkeys : (Fields.keys [("failed", .bool true), ("msg", .str e.message)]).Nodup := by
    show ["failed", "msg"].Nodup
    decide
  rw [reportFailed, Fields.get?_extend hkeys]
  rfl

/-- An item that is skipped is reported so, and leaves nothing but the event. -/
theorem run_of_unwanted {k : Nat} (hbefore : (l.before k).context.overlay.Ascending)
    (h : (isWanted l.task (l.scope k)).1 = .ok false) :
    l.report k = reportSkipped (reportStart l.task (l.item k)) ∧
      l.before (k + 1) = (l.before k).noted (.skipped l.task.label k) := by
  have hrun := l.interpreter.runItem_of_unwanted l.inner hbefore l.action l.ignore k (l.item k) h
  exact ⟨congrArg (·.1.1) hrun, congrArg (·.2) hrun⟩

/-- What is reported of an item that fails, and when its error ends the list. -/
theorem run_of_outcome (k : Nat) :
    l.error? k = (failure? (l.outcome k)).filter (·.propagates l.ignore) ∧
      ∀ e, l.outcome k = .error e →
        l.report k = reportFailed (reportStart l.task (l.item k)) e := by
  have houtcome : _ = l.outcome k :=
    (withBindings_apply (l.interpreter.attempt l.inner l.task l.action)
      (itemBindings l.task (l.item k) k) (l.before k)).1
  have hrun : ((l.report k, l.error? k), l.before (k + 1)) = _ :=
    runItem_apply l.interpreter l.task l.inner l.action l.ignore k (l.item k) (l.before k)
  rw [← houtcome]
  generalize withBindings (l.interpreter.attempt l.inner l.task l.action)
    (itemBindings l.task (l.item k) k) (l.before k) = result at hrun
  obtain ⟨(e | (_ | done)), mid⟩ := result
  -- Both its report and its error are read off the one equation for the item.
  · cases hpropagates : e.propagates l.ignore with
    | true =>
      simp only [hpropagates, if_true, Prod.mk.injEq] at hrun
      simp [hrun, failure?, Option.filter, hpropagates]
    | false =>
      simp only [hpropagates, Bool.false_eq_true, if_false, Prod.mk.injEq] at hrun
      simp [hrun, failure?, Option.filter, hpropagates]
  -- An item that was skipped or done has no error.
  · exact ⟨congrArg (·.1.2) hrun, nofun⟩
  · exact ⟨congrArg (·.1.2) hrun, nofun⟩

/-- **What is reported of an item**, and what it leaves. -/
theorem reported {k : Nat} (hbefore : (l.before k).context.overlay.Ascending) : l.Reported k where
  error := (l.run_of_outcome k).1
  failed e he := by rw [(l.run_of_outcome k).2 e he, get?_reportFailed]
  skipped h := by rw [(l.run_of_unwanted hbefore h).1, get?_reportSkipped]
  untouched h := congrArg (·.context) (l.run_of_unwanted hbefore h).2
  unread h t action hlabel hcondition hloop := by
    obtain ⟨hreport, hafter⟩ := l.run_of_unwanted hbefore h
    -- The other task binds the same, starts the same report and is wanted for the same items.
    have hbindings : itemBindings t (l.item k) k = itemBindings l.task (l.item k) k := by
      unfold itemBindings
      rw [hloop]
    have hstart : reportStart t (l.item k) = reportStart l.task (l.item k) := by
      unfold reportStart
      rw [hloop, hlabel]
    have hwanted : isWanted t = isWanted l.task := by
      unfold isWanted
      rw [hlabel, hcondition]
    have hrun := l.interpreter.runItem_of_unwanted l.inner hbefore action l.ignore k (l.item k)
      (by rw [hbindings, hwanted]; exact h)
    rw [hrun, hstart, hlabel, hreport, hafter]

/-! ## The whole task -/

/-- Whether a task, run from a session on, comes to its items, and these are the loop. -/
structure OfTask : Prop where
  action : l.interpreter.actionOf l.task.payload = .ok l.action
  ignore : (ignoresErrors l.task l.start).1 = .ok l.ignore
  items : (itemsOf l.task l.start).1 = .ok l.items

/-- A task ends with its result, after the items that are run. -/
theorem OfTask.runTask_apply {l : Loop} (h : l.OfTask) :
    l.interpreter.runTask l.inner l.task l.start =
      conclude l.task l.reports l.error (l.before l.count) := by
  rw [runTask, bind_lift h.action,
    bind_of_readsOnly (consults_ignoresErrors _).readsOnly h.ignore,
    bind_of_readsOnly (consults_itemsOf _).readsOnly h.items]
  show conclude l.task (runItems l.run 0 l.items l.start).1.1
    (runItems l.run 0 l.items l.start).1.2 (runItems l.run 0 l.items l.start).2 = _
  rw [l.runItems_eq]

/-- What a task with a loop registers has the reports, and tells whether an error ended the list. -/
theorem field?_registered {t : Definition} (h : t.items.isSome = true) (reports : List Fields)
    (e : Option Error) :
    (registered t reports e).field? "results" = some (.list (reports.map .map)) ∧
      (registered t reports e).field? "failed" = some (.bool e.isSome) := by
  have hitems : ¬t.items.isNone = true := by simp [← Option.isSome_iff_ne_none, h]
  -- The four entries have different keys.
  have hkeys : ∀ msg results failed : Document, (Fields.keys [("task", .str t.label), ("msg", msg),
      ("failed", failed), ("results", results)]).Nodup := fun _ _ _ => by
    show ["task", "msg", "failed", "results"].Nodup
    decide
  rw [registered, if_neg hitems]
  dsimp only [Document.ofFields, Document.field?, Fields.ofList]
  rw [Fields.get?_extend (hkeys ..), Fields.get?_extend (hkeys ..)]
  exact ⟨rfl, rfl⟩

/-- What a task with a loop registers, and under which name. -/
structure Registers (l : Loop) (name : String) : Prop where
  /-- How the task ends, and the session that it leaves. -/
  eq : l.interpreter.runTask l.inner l.task l.start =
    (l.error.elim (.ok ()) .error,
      ((l.before l.count).noted (.registered l.task.label name)).changed
        (·.set name (registered l.task l.reports l.error)))
  /-- One report for each item that was run, in their order. -/
  results : (registered l.task l.reports l.error).field? "results" =
    some (.list ((List.range l.count).map fun k => .map (l.report k)))
  failed : (registered l.task l.reports l.error).field? "failed" = some (.bool l.error.isSome)

/-- A task whose name to register can be rendered registers the reports of its items. -/
theorem OfTask.registers {l : Loop} (h : l.OfTask) (hlooped : l.task.items.isSome = true)
    (hplugin : l.task.payload.isPlugin = true) {register : String} {named : Document}
    (hregister : l.task.register = some register)
    (hnamed : Template.render (l.before l.count).context.lookup (.str register) = .ok named)
    (hidentifier : isIdentifier named.display = true) : l.Registers named.display := by
  -- The name is looked up in the session that the items have left.
  have hname : registerNameOf l.task (l.before l.count) =
      (.ok (some named.display), l.before l.count) := by
    unfold registerNameOf
    simp only [hregister, hplugin, Bool.not_true, Bool.false_eq_true, if_false]
    rw [bind_apply, render_apply, hnamed]
    simp only [hidentifier]
    rfl
  obtain ⟨hresults, hfailed⟩ := field?_registered hlooped l.reports l.error
  refine ⟨?_, ?_, hfailed⟩
  · rw [h.runTask_apply, conclude_apply, hname]
  · rw [hresults, reports, List.map_map]
    rfl

end Loop

/-- **A task that calls a plugin for every item of a list.** Its items are run in their order, up to
the first whose error ends the list; the task ends with that error or well. It leaves what these items
leave one after another, with its result: the reports of the items that were run, and whether there is
such an error. An item that is skipped is reported so, and leaves the context as it was; of its task
nothing is looked at but the condition. An item that failed is reported so, too. -/
theorem loop_of_plugin_task {l : Loop} {levels : Nat}
    (hinner : l.inner = l.interpreter.runTasks levels) (hs : l.start.context.overlay.Ascending)
    {name : String} {args : Document} {p : Plugin} (hpayload : l.task.payload = .plugin name args)
    (hplugin : l.interpreter.registry.get? name = some p) (haction : l.action = .call p args)
    (hignore : (ignoresErrors l.task l.start).1 = .ok l.ignore)
    {raw : Document} {values : List Document} (hlooped : l.task.items = some raw)
    (hvalues : Template.render l.start.context.lookup raw = .ok (.list values))
    (hitems : l.items = values.map some)
    {register : String} {named : Document} (hregister : l.task.register = some register)
    (hnamed : Template.render (l.before l.count).context.lookup (.str register) = .ok named)
    (hidentifier : isIdentifier named.display = true) :
    l.Registers named.display ∧ l.Ended ∧ ∀ k < l.count, l.Reported k := by
  -- What is known of the task is what it reads before its first item.
  have hof : l.OfTask := {
    action := by rw [hpayload, actionOf, hplugin, haction]
    ignore := hignore
    items := by
      rw [itemsOf, hlooped, hitems]
      dsimp only
      rw [bind_apply, render_apply, hvalues]
      rfl }
  refine ⟨hof.registers ?_ ?_ hregister hnamed hidentifier, l.ended, fun k _ => l.reported ?_⟩
  · rw [hlooped, Option.isSome_some]
  · rw [hpayload, Payload.isPlugin]
  -- The lists inside a task that calls a plugin are not run, but the loop is stated for all tasks.
  · refine l.ascending_before (fun tasks => ?_) hs k
    rw [hinner]
    exact framing_law.runTasks l.interpreter levels tasks

/-- A plugin that fails for two numbers, and for one of them whatever a task asks for. -/
private def choosy : Plugin where
  name := "choose"
  args := .mapping
  run call := call.answer <| match call.arg? "x" with
    | some (.int 2) => .error (.execution "two")
    | some (.int 3) => .error (.assertion "three")
    | _ => .ok .null

/-- A loop that skips its first item, ignores the error of the second, ends with the third, and does
not come to the fourth. -/
private def choosing : Loop where
  interpreter := ⟨⟨[choosy]⟩, fun _ => default, none, none, 2⟩
  inner := (⟨⟨[choosy]⟩, fun _ => default, none, none, 2⟩ : Interpreter).runTasks 0
  task := {
    payload := .plugin "choose" (.map [("x", .str "\x7b\x7b __item__ \x7d\x7d")])
    items := some (.list [.int 1, .int 2, .int 3, .int 4])
    register := some "answer"
    condition := some (.str "__item__ != 1")
    ignoreErrors := some (.bool true) }
  action := .call choosy (.map [("x", .str "\x7b\x7b __item__ \x7d\x7d")])
  ignore := true
  items := [.int 1, .int 2, .int 3, .int 4].map some
  start := { context := {} }

theorem loop_of_plugin_task_choosing :
    choosing.count = 3 ∧ choosing.error = some (.assertion "choose" "three") ∧
      choosing.Registers "answer" ∧ choosing.Ended ∧ ∀ k < choosing.count, choosing.Reported k :=
  ⟨by decide +kernel, by decide +kernel,
    have hnamed : Template.render (choosing.before choosing.count).context.lookup (.str "answer") =
      .ok (.str "answer") := rfl
    loop_of_plugin_task (l := choosing) rfl .nil rfl rfl rfl rfl rfl rfl rfl rfl hnamed (by decide)⟩

end SoftwareCensus.Tasks
