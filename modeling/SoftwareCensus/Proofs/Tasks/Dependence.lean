import SoftwareCensus.Proofs.Tasks.Invocations

/-!
# What a Run Asks of Its Plugins

A plugin can be any function of its call. A run looks at this function only where it calls the plugin,
and these are the calls of its task list: plugins that answer otherwise, but not there, leave the run as
it is. So a plugin is handed what the calls of the list say, and nothing else.

Two runs are compared here that differ in the answers of their plugins. Both come to the same sessions
as long as the answers agree, so every lemma says of one part of the first run where the answers have to
agree for the same part of the second.

## Main results

* `Invokes.callPlugin_eq` : what happens at a call is what becomes of the plugin's answer to it
* `Interpreter.runTasks_answering` : a run depends on its plugins by their answers to its calls only
-/

namespace SoftwareCensus

/-! ## Plugins that answer otherwise -/

/-- The plugin with other answers to its calls; nothing else about it changes. -/
def Plugin.answering (answer : Plugin → Plugin.Call → Plugin.Ending) (p : Plugin) : Plugin :=
  { p with run := answer p }

namespace Tasks

open Run Interpreter

/-- What a task does, when plugins answer otherwise. -/
def Interpreter.Action.answering (answer : Plugin → Plugin.Call → Plugin.Ending) :
    Action → Action
  | .call p args => .call (p.answering answer) args
  | .block tasks => .block tasks
  | .inclusion file => .inclusion file

/-- The interpreter whose plugins answer otherwise. -/
def Interpreter.answering (i : Interpreter) (answer : Plugin → Plugin.Call → Plugin.Ending) :
    Interpreter :=
  { i with registry := ⟨i.registry.plugins.map (Plugin.answering answer)⟩ }

/-! ## What happens at a call -/

/-- **What happens at a call** is that the plugin is run with what the call says, and that its answer is
settled. -/
theorem Invokes.callPlugin_eq {i : Interpreter} {levels index : Nat} {tasks : List Document}
    {s : Session} {v : Invocation} (h : Invokes i levels index tasks s v) :
    i.callPlugin v.task v.plugin v.args v.site =
      settle v.task v.plugin v.limit (v.plugin.run v.call)
        (v.site.noted (.called v.plugin.name v.call.environment)) := by
  induction h with
  | later _ _ ih => exact ih
  | call _ _ _ arguments limited =>
    -- The arguments and the limit are only read, so the plugin is run in the session of the call.
    rw [callPlugin, bind_of_readsOnly (readsOnly_argsOf _ _ _) arguments,
      bind_of_readsOnly (readsOnly_limitOf _ _) limited]
    rfl
  | block _ _ _ _ ih => exact ih
  | inclusion _ _ _ _ _ ih => exact ih

/-! ## The same from the same session on -/

namespace Run

variable {α β : Type} {act act' : Run α} {s : Session}

theorem bind_congr {next next' : α → Run β} (hact : act s = act' s)
    (hnext : ∀ x mid, act s = (.ok x, mid) → next x mid = next' x mid) :
    (act >>= next) s = (act' >>= next') s := by
  rw [bind_apply, bind_apply, ← hact]
  generalize act s = result at hnext
  -- An error ends both runs in the same session.
  obtain ⟨(e | x), mid⟩ := result
  · rfl
  · exact hnext x mid rfl

/-- After something that only reads, the session is still the same. -/
theorem bind_congr_of_readsOnly {next next' : α → Run β} (hact : ReadsOnly act)
    (hnext : ∀ x, (act s).1 = .ok x → next x s = next' x s) :
    (act >>= next) s = (act >>= next') s := by
  refine bind_congr rfl fun x mid hresult => ?_
  obtain rfl := hact.eq hresult
  exact hnext x (congrArg Prod.fst hresult)

theorem within_congr {enter leave : Context → Context}
    (h : act (s.changed enter) = act' (s.changed enter)) :
    within enter leave act s = within enter leave act' s := by
  show ((act (s.changed enter)).1, (act (s.changed enter)).2.changed leave) = _
  rw [h]
  rfl

theorem withBindings_congr {bindings : List (String × Document)}
    (h : act (s.bound bindings) = act' (s.bound bindings)) :
    withBindings act bindings s = withBindings act' bindings s := by
  induction bindings generalizing s with
  | nil => exact h
  | cons entry rest ih =>
    -- The first binding is made before the others, in the session that they begin in.
    show within (·.set entry.1 entry.2) (·.rebind entry.1 (s.context.overlay.get? entry.1))
      (withBindings act rest) s = _
    exact within_congr (ih (s := s.changed (·.set entry.1 entry.2)) h)

theorem withEnvironment_congr {layer : Option Fields}
    (h : act (s.pushed layer) = act' (s.pushed layer)) :
    withEnvironment layer act s = withEnvironment layer act' s := by
  -- Without a layer nothing is pushed.
  cases layer with
  | none => exact h
  | some layer =>
    have h : act (s.changed (·.pushEnvironment layer)) = act' (s.changed (·.pushEnvironment layer)) :=
      h
    exact within_congr h

theorem map_congr {f : α → β} (h : act s = act' s) : (f <$> act) s = (f <$> act') s := by
  rw [map_eq_pure_bind, map_eq_pure_bind]
  exact bind_congr h fun _ _ _ => rfl

/-- A failure is not followed by anything. -/
theorem bind_lift_error {outcome : Except Error α} {e : Error} (h : outcome = .error e)
    (next : α → Run β) : ((liftM outcome : Run α) >>= next) s = (.error e, s) := by
  rw [h]
  rfl

/-- What cannot fail, as a part of what can. -/
theorem lift_congr {act act' : StateM Session α} (h : act s = act' s) :
    (liftM act : Run α) s = (liftM act' : Run α) s := by
  show (Except.ok (act s).1, (act s).2) = (Except.ok (act' s).1, (act' s).2)
  rw [h]

theorem noteFailure_congr (h : act s = act' s) : noteFailure act s = noteFailure act' s := by
  rw [noteFailure, noteFailure, h]

end Run

namespace Interpreter

variable (i : Interpreter) (answer : Plugin → Plugin.Call → Plugin.Ending)

theorem actionOf_answering (payload : Payload) :
    (i.answering answer).actionOf payload =
      (i.actionOf payload).map (Action.answering answer) := by
  cases payload with
  | plugin name args =>
    have hfound : (i.answering answer).registry.get? name =
        (i.registry.get? name).map (Plugin.answering answer) := List.find?_map ..
    rw [actionOf, actionOf, hfound]
    cases i.registry.get? name <;> rfl
  | block => rfl
  | inclusion => rfl

variable {answer} {inner inner' : List Document → Run Unit} {t : Definition} {s : Session}

/-- A plugin is called alike if its answers to that call agree. -/
theorem callPlugin_answering {p : Plugin} {args : Document}
    (h : ∀ ready limit, (argsOf t.label p args s).1 = .ok ready → (i.limitOf t s).1 = .ok limit →
      answer p (callOf t s.context ready) = p.run (callOf t s.context ready)) :
    (i.answering answer).callPlugin t (p.answering answer) args s = i.callPlugin t p args s := by
  refine bind_congr_of_readsOnly (readsOnly_argsOf t.label p args) fun ready hready => ?_
  refine bind_congr_of_readsOnly (readsOnly_limitOf i t) fun limit hlimit => ?_
  -- Of the plugin itself only its name is settled with.
  show settle t p limit (answer p (callOf t s.context ready))
      (s.noted (.called p.name s.context.environmentEntries)) =
    settle t p limit (p.run (callOf t s.context ready))
      (s.noted (.called p.name s.context.environmentEntries))
  rw [h ready limit hready hlimit]

/-- What a task does is done alike if that of the list inside it is, or of the call. -/
theorem perform_answering {action : Action}
    (hcall : ∀ p args ready limit, action = .call p args →
      (argsOf t.label p args s).1 = .ok ready → (i.limitOf t s).1 = .ok limit →
        answer p (callOf t s.context ready) = p.run (callOf t s.context ready))
    (hblock : ∀ tasks, action = .block tasks → inner' tasks s = inner tasks s)
    (hinclusion : ∀ file tasks mid, action = .inclusion file →
      i.included t.label file s = (.ok tasks, mid) → inner' tasks mid = inner tasks mid) :
    (i.answering answer).perform inner' t (action.answering answer) s =
      i.perform inner t action s := by
  cases action with
  | call p args => exact i.callPlugin_answering fun ready limit => hcall p args ready limit rfl
  | block tasks => exact bind_congr (hblock tasks rfl) fun _ _ _ => rfl
  -- Files are looked up without any plugin, so both runs go on with the same list.
  | inclusion file =>
    have hfile : (i.answering answer).included t.label file s = i.included t.label file s := rfl
    refine bind_congr hfile fun tasks mid hincluded => ?_
    exact bind_congr (hinclusion file tasks mid rfl hincluded) fun _ _ _ => rfl

theorem carryOut_answering {action : Action}
    (h : ∀ layer vars, (layerOf t s).1 = .ok layer →
      (renderVars t.label t.vars (s.pushed layer)).1 = .ok vars →
        (i.answering answer).perform inner' t (action.answering answer)
            ((s.pushed layer).bound vars) =
          i.perform inner t action ((s.pushed layer).bound vars)) :
    (i.answering answer).carryOut inner' t (action.answering answer) s =
      i.carryOut inner t action s := by
  refine bind_congr_of_readsOnly (readsOnly_layerOf t) fun layer hlayer => ?_
  refine withEnvironment_congr ?_
  refine bind_congr_of_readsOnly (readsOnly_renderVars _ _) fun vars hvars => ?_
  exact withBindings_congr (h layer vars hlayer hvars)

theorem attempt_answering {action : Action}
    (h : (isWanted t s).1 = .ok true →
      (i.answering answer).carryOut inner' t (action.answering answer) s =
        i.carryOut inner t action s) :
    (i.answering answer).attempt inner' t (action.answering answer) s =
      i.attempt inner t action s := by
  refine bind_congr_of_readsOnly (readsOnly_isWanted t) fun wanted hwanted => ?_
  -- An item that is not wanted is not carried out, so it asks for nothing.
  cases wanted with
  | false => rfl
  | true => exact map_congr (h hwanted)

theorem runItem_answering {action : Action} {ignore : Bool} {index : Nat} {item : Option Document}
    (h : (i.answering answer).attempt inner' t (action.answering answer)
        (s.bound (itemBindings t item index)) =
      i.attempt inner t action (s.bound (itemBindings t item index))) :
    (i.answering answer).runItem inner' t (action.answering answer) ignore index item s =
      i.runItem inner t action ignore index item s := by
  rw [runItem_apply, runItem_apply, withBindings_congr h]

end Interpreter

/-! ## Items and lists -/

namespace Loop

variable {l : Loop}

/-- An item without an error before it is run. -/
theorem lt_count {k : Nat} (hk : k < l.items.length) (h : ∀ j < k, l.error? j = none) :
    k < l.count := by
  cases herror : l.error with
  | none => exact (l.ended.through herror).1 ▸ hk
  -- The loop ended at an item with an error, and no item up to this one has any.
  | some e =>
    obtain ⟨j, -, hcount, hj⟩ := l.ended.stopped e herror
    have hle : k ≤ j := by
      by_contra hlt
      exact absurd (hj.symm.trans (h j (by omega))) nofun
    omega

/-- Items are run alike from the same session on, if those that are run at all are. -/
theorem runItems_congr {run : Nat → Option Document → StateM Session (Fields × Option Error)}
    (hrun : ∀ k < l.count, run k (l.item k) (l.before k) = l.run k (l.item k) (l.before k)) :
    runItems run 0 l.items l.start = runItems l.run 0 l.items l.start := by
  suffices h : ∀ k, (∀ j < k, l.error? j = none) →
      runItems run k (l.items.drop k) (l.before k) =
        runItems l.run k (l.items.drop k) (l.before k) by
    have hall := h 0 nofun
    rwa [List.drop_zero] at hall
  intro k hearlier
  -- The induction is on the items that are left, as each begins where the one before it ended.
  induction hrest : l.items.length - k generalizing k with
  | zero =>
    rw [List.drop_eq_nil_of_le (by omega)]
    rfl
  | succ rest ih =>
    have hlt : k < l.items.length := by omega
    have hitem : l.items[k] = l.item k := by
      rw [item, List.getElem?_eq_getElem hlt]
      rfl
    rw [List.drop_eq_getElem_cons hlt, hitem, runItems_cons, runItems_cons,
      hrun k (lt_count hlt hearlier), run_before]
    cases herror : l.error? k with
    | some e => rfl
    | none =>
      have hnext : ∀ j < k + 1, l.error? j = none := fun j hj => by
        rcases Nat.lt_succ_iff_lt_or_eq.mp hj with hj | rfl
        · exact hearlier j hj
        · exact herror
      dsimp only
      rw [ih (k + 1) hnext (by omega)]

end Loop

namespace Interpreter

variable (i : Interpreter) {answer : Plugin → Plugin.Call → Plugin.Ending}
  {inner inner' : List Document → Run Unit} {t : Definition} {s : Session}

theorem runTask_answering
    (h : ∀ l : Loop, l.interpreter = i → l.inner = inner → l.task = t → l.start = s → l.OfTask →
      ∀ k layer site, l.Reaches k layer site →
        (i.answering answer).perform inner' t (l.action.answering answer) site =
          i.perform inner t l.action site) :
    (i.answering answer).runTask inner' t s = i.runTask inner t s := by
  have hother := i.actionOf_answering answer t.payload
  -- A plugin that is not registered is missing in both registries.
  cases haction : i.actionOf t.payload with
  | error e =>
    rw [haction] at hother
    rw [runTask, bind_lift_error hother, runTask, bind_lift_error haction]
  | ok action =>
    rw [haction] at hother
    rw [runTask, bind_lift hother, runTask, bind_lift haction]
    refine bind_congr_of_readsOnly (consults_ignoresErrors t).readsOnly fun ignore hignore => ?_
    refine bind_congr_of_readsOnly (consults_itemsOf t).readsOnly fun items hitems => ?_
    have hperform := h ⟨i, inner, t, action, ignore, items, s⟩ rfl rfl rfl rfl
      ⟨haction, hignore, hitems⟩
    have hsame : runItems ((i.answering answer).runItem inner' t (action.answering answer) ignore)
        0 items s = runItems (i.runItem inner t action ignore) 0 items s := by
      refine Loop.runItems_congr (l := ⟨i, inner, t, action, ignore, items, s⟩) fun k hk => ?_
      refine i.runItem_answering (i.attempt_answering fun hwanted => ?_)
      refine i.carryOut_answering fun layer vars hlayer hvars => ?_
      exact hperform k layer _ ⟨hk, hwanted, hlayer, vars, hvars, rfl⟩
    exact bind_congr (lift_congr hsame) fun _ _ _ => rfl

section Lists

variable {levels : Nat} (hinner : ∀ tasks s,
  (∀ v, Invokes i levels 0 tasks s v → answer v.plugin v.call = v.plugin.run v.call) →
    (i.answering answer).runTasks levels tasks s = i.runTasks levels tasks s)

include hinner

theorem runEntry_answering {index : Nat} {d : Document} {rest : List Document}
    (h : ∀ v, Invokes i (levels + 1) index (d :: rest) s v →
      answer v.plugin v.call = v.plugin.run v.call) :
    (i.answering answer).runEntry ((i.answering answer).runTasks levels) index d s =
      i.runEntry (i.runTasks levels) index d s := by
  refine noteFailure_congr (bind_congr_of_readsOnly (readsOnly_lift _) fun t hparsed => ?_)
  refine i.runTask_answering ?_
  rintro l rfl hl rfl rfl hof k layer site hreached
  have hentry : l.OfEntry l.interpreter levels index d l.start := by
    refine ⟨hof, rfl, hl, rfl, ?_⟩
    generalize Definition.parse index d = outcome at hparsed
    cases outcome with
    | error e => cases hparsed
    | ok t => exact hparsed
  -- The calls of a list inside the task are calls of the list that the task is in.
  refine l.interpreter.perform_answering (fun p args ready limit haction harguments hlimited => ?_)
    (fun tasks haction => ?_) (fun file tasks mid haction hincluded => ?_)
  · exact h _ (.call hentry hreached haction harguments hlimited)
  · exact hinner tasks site fun v hv => h (v.inside layer) (.block hentry hreached haction hv)
  · exact hinner tasks mid fun v hv =>
      h (v.inside layer) (.inclusion hentry hreached haction hincluded hv)

theorem runFrom_answering {index : Nat} {tasks : List Document}
    (h : ∀ v, Invokes i (levels + 1) index tasks s v →
      answer v.plugin v.call = v.plugin.run v.call) :
    (i.answering answer).runFrom ((i.answering answer).runTasks levels) index tasks s =
      i.runFrom (i.runTasks levels) index tasks s := by
  induction tasks generalizing index s with
  | nil => rfl
  | cons d rest ih =>
    have hfirst := i.runEntry_answering hinner h
    refine bind_congr hfirst fun _ mid hmid => ?_
    rw [hfirst] at hmid
    exact ih fun v hv => h v (.later hmid hv)

end Lists

/-- **A run depends on its plugins by their answers to its calls only.** Plugins that answer these calls
alike, whatever they answer to others, make the same run. -/
theorem runTasks_answering (levels : Nat) (tasks : List Document) (s : Session)
    (h : ∀ v, Invokes i levels 0 tasks s v → answer v.plugin v.call = v.plugin.run v.call) :
    (i.answering answer).runTasks levels tasks s = i.runTasks levels tasks s := by
  induction levels generalizing tasks s with
  | zero => rfl
  | succ levels ih => exact i.runFrom_answering (fun tasks s hinside => ih tasks s hinside) h

end Interpreter

end Tasks
end SoftwareCensus
