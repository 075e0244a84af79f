import SoftwareCensus.Proofs.Document.Entries
import SoftwareCensus.Proofs.Tasks.RunLaw

/-!
# Scopes of Tasks

What a task binds for its own time is unbound when it ends, in the reverse order, so a run leaves
nothing behind but what it registers. That a name is bound twice in one scope, or is registered by a
task inside the scope, changes nothing: the scope remembers what the name was bound to before.

## Main results

* `framing_law` : a run changes a binding only by registering under its name
* `scopes_leave_nothing` : the same of whole runs, and the names that a task binds for an item
-/

namespace SoftwareCensus.Tasks

/-! ## Bindings -/

namespace Context

/-- Going back to an earlier binding keeps the order of the keys. -/
theorem ascending_rebind {c : Context} (h : c.overlay.Ascending) (name : String)
    (before : Option Document) : (c.rebind name before).overlay.Ascending := by
  cases before with
  | none => exact h.erase name
  | some d => exact h.insert name d

/-- Going back to an earlier binding of a name touches no other name. -/
theorem get?_rebind {c : Context} (h : c.overlay.Ascending) (name : String)
    (before : Option Document) (k : String) :
    (c.rebind name before).overlay.get? k = if k = name then before else c.overlay.get? k := by
  cases before with
  | none => exact Fields.get?_erase h name k
  | some d => exact Fields.get?_insert c.overlay name d k

end Context

/-! ## Frames -/

/-- What something leaves as it was. Bindings differ only where a result was registered. -/
structure Framed (s after : Session) : Prop where
  base_eq : after.context.base = s.context.base
  environment_eq : after.context.environment = s.context.environment
  ascending : after.context.overlay.Ascending
  overlay : ∃ events, after.journal = events ++ s.journal ∧
    ∀ name, after.context.overlay.get? name ≠ s.context.overlay.get? name →
      ∃ task, Event.registered task name ∈ events

namespace Framed

variable {s mid after : Session}

/-- What does nothing leaves everything as it was. -/
theorem refl (h : s.context.overlay.Ascending) : Framed s s where
  base_eq := rfl
  environment_eq := rfl
  ascending := h
  overlay := ⟨[], rfl, fun _ hne => absurd rfl hne⟩

/-- Two parts leave as it was what both of them leave. -/
theorem trans (hfirst : Framed s mid) (hnext : Framed mid after) : Framed s after where
  base_eq := hnext.base_eq.trans hfirst.base_eq
  environment_eq := hnext.environment_eq.trans hfirst.environment_eq
  ascending := hnext.ascending
  overlay := by
    obtain ⟨events, hevents, hbound⟩ := hfirst.overlay
    obtain ⟨later, hlater, hrebound⟩ := hnext.overlay
    refine ⟨later ++ events, by rw [hlater, hevents, List.append_assoc], ?_⟩
    intro name hne
    -- A name that the second part leaves alone was bound otherwise by the first.
    by_cases hsame : after.context.overlay.get? name = mid.context.overlay.get? name
    · rw [hsame] at hne
      obtain ⟨task, htask⟩ := hbound name hne
      exact ⟨task, List.mem_append_right _ htask⟩
    · obtain ⟨task, htask⟩ := hrebound name hsame
      exact ⟨task, List.mem_append_left _ htask⟩

/-- An event changes no binding. -/
theorem noted (h : Framed s after) (event : Event) : Framed s (after.noted event) :=
  h.trans {
    base_eq := rfl
    environment_eq := rfl
    ascending := h.ascending
    overlay := ⟨[event], rfl, fun _ hne => absurd rfl hne⟩ }

/-- A result that is registered changes the binding of its name, and the event tells so. -/
theorem registered (h : s.context.overlay.Ascending) (task name : String) (d : Document) :
    Framed s ((s.noted (.registered task name)).changed (·.set name d)) where
  base_eq := rfl
  environment_eq := rfl
  ascending := h.insert name d
  overlay := by
    refine ⟨[.registered task name], rfl, ?_⟩
    intro k hne
    -- No other name is bound otherwise than before.
    have hk : k = name := by
      by_contra hk
      exact hne ((Fields.get?_insert ..).trans (if_neg hk))
    exact ⟨task, by simp [hk]⟩

/-- A scope undoes its binding, whatever happened to the name inside it. -/
theorem rebind {name : String} {d : Document} (h : Framed (s.changed (·.set name d)) after) :
    Framed s (after.changed (·.rebind name (s.context.overlay.get? name))) where
  base_eq := by
    have hbase := h.base_eq
    -- The binding of the name is put back or taken away; neither touches anything else.
    cases hbefore : s.context.overlay.get? name <;>
      simpa [Session.changed, Context.rebind, Context.set, Context.remove] using hbase
  environment_eq := by
    have henvironment := h.environment_eq
    cases hbefore : s.context.overlay.get? name <;>
      simpa [Session.changed, Context.rebind, Context.set, Context.remove] using henvironment
  ascending := Context.ascending_rebind h.ascending ..
  overlay := by
    obtain ⟨events, hevents, hbound⟩ := h.overlay
    refine ⟨events, hevents, ?_⟩
    intro k hne
    have hafter := Context.get?_rebind h.ascending name (s.context.overlay.get? name) k
    by_cases hk : k = name
    · -- The name of the scope is bound as before, so it is none of those that differ.
      rw [if_pos hk] at hafter
      exact absurd (hafter.trans (hk ▸ rfl)) hne
    · rw [if_neg hk] at hafter
      have hentered : (s.changed (·.set name d)).context.overlay.get? k =
          s.context.overlay.get? k := (Fields.get?_insert ..).trans (if_neg hk)
      refine hbound k fun hsame => hne ?_
      exact hafter.trans (hsame.trans hentered)

/-- A layer of environment entries is taken away again. -/
theorem pop {layer : Fields} (h : Framed (s.changed (·.pushEnvironment layer)) after) :
    Framed s (after.changed (·.popEnvironment)) where
  base_eq := h.base_eq
  environment_eq := by
    have henvironment := congrArg List.dropLast h.environment_eq
    exact henvironment.trans List.dropLast_concat
  ascending := h.ascending
  overlay := h.overlay

end Framed

/-- The frame of a run is a law of runs. The keys of the bindings have to be in order, as those of
all mappings are. -/
theorem framing_law :
    RunLaw fun s _ after => s.context.overlay.Ascending → Framed s after where
  refl h := .refl h
  trans hfirst hnext h := (hfirst h).trans (hnext (hfirst h).ascending)
  quiet _ h := (Framed.refl h).noted _
  called h := (Framed.refl h).noted _
  facts h := ⟨rfl, rfl, h, [], rfl, fun _ hne => absurd rfl hne⟩
  registered h := .registered h ..
  binding hact h := (hact (h.insert ..)).rebind
  layer hact h := (hact h).pop
  waits hfirst hnext h := ((hfirst h).noted _).trans (hnext (hfirst h).ascending)
  ignored _ hact h := ((hact h).noted _).noted _
  misnamed hact h := (hact h).noted _
  unnameable _ hact h := (hact h).noted _

/-! ## Names that are bound for a time -/

/-- Whether something leaves a name bound as it was. -/
def KeepsBinding {α : Type} (name : String) (act : Run α) : Prop :=
  ∀ s : Session, s.context.overlay.Ascending →
    (act s).2.context.overlay.get? name = s.context.overlay.get? name

section KeepsBinding

variable {α : Type} {act : Run α} {name : String}
  (hframe : Obeys (fun s _ after => s.context.overlay.Ascending → Framed s after) act)

include hframe

/-- After a scope, its name is bound as before; so is a name that was left alone in it. -/
theorem keepsBinding_withBinding {bound : String}
    (h : name = bound ∨ KeepsBinding name act) (d : Document) :
    KeepsBinding name (Run.withBinding bound d act) := by
  intro s hs
  have hentered : (s.changed (·.set bound d)).context.overlay.Ascending := hs.insert bound d
  refine (Context.get?_rebind (hframe _ hentered).ascending bound _ name).trans ?_
  -- The name of the scope has its old value back, and any other name was left alone inside.
  by_cases hname : name = bound
  · rw [if_pos hname, hname]
  · rw [if_neg hname]
    refine ((h.resolve_left hname) _ hentered).trans ?_
    exact (Fields.get?_insert ..).trans (if_neg hname)

/-- After several scopes, all their names are bound as before. -/
theorem keepsBinding_withBindings {bindings : List (String × Document)}
    (h : name ∈ bindings.map (·.1) ∨ KeepsBinding name act) :
    KeepsBinding name (Run.withBindings act bindings) := by
  -- By induction on the scopes, from the outermost in.
  induction bindings with
  | nil => exact h.resolve_left List.not_mem_nil
  | cons entry rest ih =>
    refine keepsBinding_withBinding (framing_law.withBindings hframe rest) ?_ entry.2
    rw [List.map_cons, List.mem_cons, or_assoc] at h
    exact h.imp_right ih

omit hframe in
/-- A layer of environment entries binds no name. -/
theorem KeepsBinding.withEnvironment (h : KeepsBinding name act) (layer : Option Fields) :
    KeepsBinding name (Run.withEnvironment layer act) := by
  cases layer with
  | none => exact h
  | some layer => exact fun s hs => h (s.changed (·.pushEnvironment layer)) hs

omit hframe in
/-- What comes after something that only reads decides. -/
theorem keepsBinding_bind {β : Type} {next : α → Run β} (hact : Run.ReadsOnly act)
    (hnext : ∀ x s, act s = (.ok x, s) → KeepsBinding name (next x)) :
    KeepsBinding name (act >>= next) := by
  intro s hs
  have hmid := hact s
  rw [Run.bind_apply]
  cases hresult : act s with
  | mk outcome mid =>
    rw [hresult] at hmid
    obtain rfl : mid = s := hmid
    cases outcome with
    | ok x => exact hnext x mid hresult mid hs
    | error e => rfl

omit hframe in
/-- What becomes of a result changes no binding. -/
theorem KeepsBinding.map {β : Type} (h : KeepsBinding name act) (f : α → β) :
    KeepsBinding name (f <$> act) := by
  intro s hs
  rw [map_eq_pure_bind, Run.bind_apply]
  have hact := h s hs
  generalize act s = result at hact ⊢
  obtain ⟨outcome, mid⟩ := result
  cases outcome <;> exact hact

end KeepsBinding

namespace Interpreter

/-- Rendering the variables of a task keeps their names. -/
theorem map_fst_renderVars {label : String} {vars rendered : List (String × Document)}
    {s after : Session} (h : renderVars label vars s = (.ok rendered, after)) :
    rendered.map (·.1) = vars.map (·.1) := by
  induction vars generalizing rendered s after with
  | nil =>
    obtain rfl : [] = rendered := Except.ok.inj (congrArg Prod.fst h)
    rfl
  | cons entry rest ih =>
    rw [renderVars] at h
    obtain ⟨d, mid, -, h⟩ := Run.bind_eq_ok h
    obtain ⟨others, last, hothers, h⟩ := Run.bind_eq_ok h
    obtain rfl : (entry.1, d) :: others = rendered := Except.ok.inj (congrArg Prod.fst h)
    rw [List.map_cons, List.map_cons, ih hothers]

variable (i : Interpreter) (t : Definition) {inner : List Document → Run Unit} {name : String}
  (hinner : ∀ tasks, Obeys (fun s _ after => s.context.overlay.Ascending → Framed s after)
    (inner tasks))

include hinner

/-- The variables of a task are bound as before when it ends. -/
theorem keepsBinding_attempt (hname : name ∈ t.vars.map (·.1)) (action : Action) :
    KeepsBinding name (i.attempt inner t action) := by
  -- The variables are bound around what the task does, so they are among the scopes.
  have hcarried : KeepsBinding name (i.carryOut inner t action) := by
    refine keepsBinding_bind (readsOnly_layerOf t) fun layer _ _ => ?_
    refine KeepsBinding.withEnvironment ?_ layer
    refine keepsBinding_bind (readsOnly_renderVars _ _) fun vars s hvars => ?_
    refine keepsBinding_withBindings (framing_law.perform i t hinner action) (Or.inl ?_)
    rwa [map_fst_renderVars hvars]
  refine keepsBinding_bind (readsOnly_isWanted t) fun wanted _ _ => ?_
  split
  · exact fun _ _ => rfl
  · exact hcarried.map some

/-- What a task binds for an item is bound as before when the item was run. -/
theorem get?_runItem (action : Action) (ignore : Bool) (index : Nat) (item : Option Document)
    (hname : name ∈ (itemBindings t item index ++ t.vars).map (·.1)) {s : Session}
    (hs : s.context.overlay.Ascending) :
    (i.runItem inner t action ignore index item s).2.context.overlay.get? name =
      s.context.overlay.get? name := by
  rw [List.map_append, List.mem_append] at hname
  -- Names of the loop and names of the variables are bound by scopes of the item.
  have hkept := keepsBinding_withBindings (framing_law.attempt i t hinner action)
    (hname.imp_right fun hvars => keepsBinding_attempt i t hinner hvars action) s hs
  rw [runItem_apply]
  generalize Run.withBindings (i.attempt inner t action) (itemBindings t item index) s = result
    at hkept ⊢
  obtain ⟨(e | (_ | done)), mid⟩ := result
  · cases hends : e.propagates ignore <;> simpa [hends] using hkept
  · exact hkept
  · exact hkept

end Interpreter

/-- **Scopes leave nothing behind.** Whether a run ends well or not, the fixed variables and the
layers of the environment are as before, and a variable is bound otherwise only if a task registered
its result under the name of the variable. What a task binds for an item, its own variables included,
is bound afterwards to what it was bound to before. -/
theorem scopes_leave_nothing (i : Interpreter) (levels : Nat) {s : Session}
    (hs : s.context.overlay.Ascending) :
    (∀ tasks, Framed s (i.runTasks levels tasks s).2) ∧
    ∀ t action ignore index item,
      ∀ name ∈ (Interpreter.itemBindings t item index ++ t.vars).map (·.1),
        (i.runItem (i.runTasks levels) t action ignore index item s).2.context.overlay.get? name =
          s.context.overlay.get? name := by
  have hrun := framing_law.runTasks i levels
  refine ⟨fun tasks => hrun tasks s hs, ?_⟩
  intro t action ignore index item name hname
  exact i.get?_runItem t hrun action ignore index item hname hs

/-- An interpreter whose only plugin returns nothing. -/
private def idle : Interpreter where
  registry := ⟨[{ name := "idle", args := .mapping, run := fun call => call.answer (.ok .null) }]⟩
  files := fun _ => default
  levels := 2

/-- A loop binds one name three times, and a task inside registers its result under it. -/
private def shadowing : Document :=
  .map [("block", .list [.map [("idle", .map []), ("register", .str "x")],
      .map [("idle", .map []), ("register", .str "y")]]),
    ("loop", .list [.int 1, .int 2]),
    ("loop_control", .map [("index_var", .str "x"), ("loop_var", .str "x")]),
    ("vars", .map [("x", .int 3)])]

private def before : Session where
  context := { overlay := [("x", .str "kept")] }

/-- The loop variable, which was registered as well, is what it was before; the other name that was
registered stays. -/
theorem scopes_leave_nothing_shadowing :
    before.context.overlay.Ascending ∧
      ((idle.runTasks 2 [shadowing] before).2.context.overlay.get? "x").bind Document.asStr? =
        some "kept" ∧
      ((idle.runTasks 2 [shadowing] before).2.context.overlay.get? "y").isSome = true ∧
      Framed before (idle.runTasks 2 [shadowing] before).2 :=
  ⟨List.pairwise_singleton _ _, by decide +kernel, by decide +kernel,
    (scopes_leave_nothing idle 2 (s := before) (List.pairwise_singleton _ _)).1 [shadowing]⟩

end SoftwareCensus.Tasks
