import SoftwareCensus.Plugin.Registry

/-!
# Refused Arguments

The shape of the arguments of a plugin and what else they have to satisfy are looked at before the
plugin is called. What the built-in plugins find wrong after that is another error.

## Main results

* `Registry.builtin_leavesChecks` : no built-in plugin refuses arguments that its checks let pass
-/

namespace SoftwareCensus

namespace Plugin

/-- A plugin that refuses no arguments that its checks let pass. -/
def LeavesChecks (p : Plugin) : Prop :=
  ∀ call plugin flaw facts, p.run call ≠ .finished (.error (.invalidArgs plugin flaw)) facts

/-! ## Results that refuse no arguments -/

/-- Whether a result is not that arguments are refused. -/
def Accepting {α : Type} (result : Except Error α) : Prop :=
  ∀ plugin flaw, result ≠ .error (.invalidArgs plugin flaw)

namespace Accepting

variable {α β : Type}

/-- A plugin that comes to a result has refused nothing. -/
theorem ok (x : α) : Accepting (.ok x : Except Error α) := nofun

/-- An error of the execution is another error. -/
theorem execution (why : String) : Accepting (.error (.execution why) : Except Error α) := nofun

/-- So is a failed assertion. -/
theorem assertion (why : String) : Accepting (.error (.assertion why) : Except Error α) := nofun

/-- Errors of templates refuse no arguments either. -/
theorem template (result : Except Template.Error α) :
    Accepting (result.mapError (Error.template)) := by
  cases result with
  | ok x => exact ok x
  | error e => exact nofun

/-- A sequence refuses no arguments if neither part does. -/
theorem bind {first : Except Error α} {next : α → Except Error β} (hfirst : Accepting first)
    (hnext : ∀ x, Accepting (next x)) : Accepting (first >>= next) := by
  intro plugin flaw h
  -- The refusal would be that of the first part, or of what follows.
  cases first with
  | ok x => exact hnext x plugin flaw h
  | error e =>
    cases h
    exact hfirst plugin flaw rfl

/-- Changing what comes out refuses nothing new. -/
theorem map {result : Except Error α} (h : Accepting result) (f : α → β) :
    Accepting (result.map f) := by
  intro plugin flaw hmapped
  cases result with
  | ok x => cases hmapped
  | error e =>
    cases hmapped
    exact h plugin flaw rfl

end Accepting

/-- A plugin that answers with such results leaves checks to others. -/
theorem leavesChecks_of_answer {p : Plugin} {result : Call → Except Error Document}
    (hrun : p.run = fun call => call.answer (result call)) (hresult : ∀ call, Accepting (result call)) :
    p.LeavesChecks := by
  intro call plugin flaw facts h
  rw [hrun] at h
  -- The answer ends with the result of the plugin, so a refusal would be the plugin's own.
  cases hanswer : result call with
  | ok d =>
    simp only [Call.answer, hanswer] at h
    cases h
  | error e =>
    simp only [Call.answer, hanswer] at h
    cases h
    exact hresult call plugin flaw hanswer

/-! ## Plugins -/

/-- A key that is no path is an error of the execution. -/
theorem accepting_factsToSet (pairs : List (String × Document)) : Accepting (factsToSet pairs) := by
  -- By induction on the facts, which are read one after another up to the first that cannot be.
  induction pairs with
  | nil => exact .ok _
  | cons entry rest ih =>
    rw [factsToSet]
    split
    · exact .execution _
    · exact ih.map _

theorem leavesChecks_setInstanceFact : setInstanceFact.LeavesChecks := by
  refine leavesChecks_of_answer rfl fun call => ?_
  split
  · exact .execution _
  · exact (accepting_factsToSet _).bind fun _ => .ok _

theorem leavesChecks_delInstanceFact : delInstanceFact.LeavesChecks := by
  intro call plugin flaw facts h
  simp only [delInstanceFact] at h
  -- Whether or not there is something to delete, the plugin comes to a result.
  split at h
  · cases h
  · cases h

theorem leavesChecks_updateInstanceFact : updateInstanceFact.LeavesChecks := by
  -- What cannot be written is an error of the execution.
  have hwrite : ∀ (updates : List Document) (facts : Document) {e rest},
      writeUpdates facts updates = (some e, rest) → ∃ why, e = .execution why := by
    -- By induction on the updates, over all facts that they may be written to.
    intro updates
    induction updates with
    | nil =>
      intro facts e rest h
      cases h
    | cons update others ih =>
      intro facts e rest h
      rw [writeUpdates] at h
      split at h
      -- The path cannot be read.
      next flaw _ =>
        cases h
        exact ⟨_, rfl⟩
      next steps _ =>
        dsimp only at h
        split at h
        -- There is no such place in the facts, or the update is written and the others follow.
        next =>
          cases h
          exact ⟨_, rfl⟩
        next => exact ih _ h
  intro call plugin flaw facts h
  simp only [updateInstanceFact] at h
  split at h
  -- The plugin fails with what could not be written, or it comes to a result.
  next e facts' hends =>
    obtain ⟨why, rfl⟩ := hwrite _ _ hends
    cases h
  next => cases h

theorem leavesChecks_recorder (name description key : String) (fields : List ArgField)
    (anyOf : List String) : (recorder name description key fields anyOf).LeavesChecks :=
  leavesChecks_of_answer rfl fun _ => .ok _

theorem leavesChecks_addVersionInfo : addVersionInfo.LeavesChecks :=
  leavesChecks_of_answer rfl fun _ => .ok _

mutual

theorem accepting_satisfies (element : Document) :
    ∀ filter : List (String × Document), Accepting (satisfies element filter)
  | [] => .ok _
  | (key, expected) :: rest => by
    rw [satisfies]
    -- The element has no such field, or its field decides, and a refusal would come from there.
    split
    · exact .ok _
    · split
      · exact accepting_satisfies element rest
      · exact accepting_satisfiesEntry key _ expected

theorem accepting_satisfiesEntry (key : String) (actual : Document) :
    ∀ expected : Document, Accepting (satisfiesEntry key actual expected)
  | .map filter => by
    rw [satisfiesEntry]
    split
    · exact accepting_satisfies actual filter
    · exact .ok _
  -- Everything else is a pattern, and one that cannot be compiled is an error of the execution.
  | .null | .bool _ | .int _ | .float _ | .str _ | .list _ => by
    rw [satisfiesEntry]
    · split
      · exact .ok _
      · exact .execution _
    · exact nofun

end

/-- A filter refuses no arguments, whatever it is applied to. -/
theorem accepting_select (filter : Fields) (elements : List Document) :
    Accepting (select filter elements) := by
  induction elements with
  | nil => exact .ok _
  | cons d rest ih => exact (accepting_satisfies d filter).bind fun _ => ih.bind fun _ => .ok _

/-- The plugins that select elements of the inventory differ in which elements these are. -/
theorem leavesChecks_finder (name description : String) (elements : Call → List Document) :
    (finder name description elements).LeavesChecks :=
  leavesChecks_of_answer rfl fun _ => (accepting_select _ _).bind fun _ => .ok _

theorem leavesChecks_findElements : findElements.LeavesChecks :=
  leavesChecks_of_answer rfl fun _ => (accepting_select _ _).bind fun _ => .ok _

theorem leavesChecks_findInDict : findInDict.LeavesChecks :=
  leavesChecks_of_answer rfl fun _ => .ok _

theorem leavesChecks_printVar : printVar.LeavesChecks := by
  have hshown : ∀ call expression, Accepting (shownValue call expression) := by
    intro call expression
    -- The expression is a value, an undefined one, or it cannot be evaluated.
    rw [shownValue]
    split
    · exact .ok _
    · exact .ok _
    · split
      · exact .ok _
      · exact nofun
  exact leavesChecks_of_answer rfl fun call => (hshown call _).bind fun _ => .ok _

/-- A message is rendered, or it is the one to fall back on. -/
theorem accepting_messageOr (call : Call) (key fallback : String) :
    Accepting (messageOr call key fallback) := by
  rw [messageOr]
  split
  · exact .ok _
  · exact (Accepting.template _).map _

theorem leavesChecks_assertPlugin : assertPlugin.LeavesChecks := by
  have hall : ∀ call conditions, Accepting (assertAll call conditions) := by
    -- By induction on the conditions, up to the first that does not hold.
    intro call conditions
    induction conditions with
    | nil => exact .ok _
    | cons condition rest ih =>
      rw [assertAll]
      refine (Accepting.template _).bind fun holds => ?_
      split
      · exact ih
      -- The condition fails, and both of its messages are rendered before the assertion does.
      · refine (accepting_messageOr call _ _).bind fun fallback => ?_
        exact (accepting_messageOr call _ _).bind fun _ => .assertion _
  refine leavesChecks_of_answer rfl fun call => ?_
  exact (hall call _).bind fun _ => (accepting_messageOr call _ _).bind fun _ => .ok _

end Plugin

/-! ## Registries -/

namespace Registry

/-- What is among the plugins after one was added is that plugin or was there. -/
theorem mem_of_mem_insertPlugin {p q : Plugin} {plugins : List Plugin}
    (h : p ∈ insertPlugin q plugins) : p = q ∨ p ∈ plugins := by
  induction plugins with
  | nil => exact .inl (List.mem_singleton.mp h)
  | cons first rest ih =>
    rw [insertPlugin] at h
    split at h
    · exact List.mem_cons.mp h
    -- It takes the place of a plugin of its name, or its place is further down.
    · split at h
      · exact (List.mem_cons.mp h).imp_right (List.mem_cons_of_mem _)
      · rcases List.mem_cons.mp h with rfl | h
        · exact .inr (List.mem_cons_self ..)
        · exact (ih h).imp_right (List.mem_cons_of_mem _)

/-- What is in a registry was put into it. -/
theorem mem_of_mem_ofList {p : Plugin} {plugins : List Plugin} (h : p ∈ (ofList plugins).plugins) :
    p ∈ plugins := by
  -- Registering goes from left to right, so the statement is over all registries to begin with.
  have hfold : ∀ (others : List Plugin) (r : Registry),
      p ∈ (others.foldl register r).plugins → p ∈ others ∨ p ∈ r.plugins := by
    intro others
    induction others with
    | nil => exact fun _ h => .inr h
    | cons q rest ih =>
      intro r hmem
      rcases ih _ hmem with hrest | hadded
      · exact .inl (List.mem_cons_of_mem q hrest)
      · rw [register] at hadded
        -- A reserved name is not registered.
        split at hadded
        · exact .inr hadded
        · rcases mem_of_mem_insertPlugin hadded with rfl | hold
          · exact .inl (List.mem_cons_self ..)
          · exact .inr hold
  rcases hfold plugins {} h with hmem | hnone
  · exact hmem
  · cases hnone

/-- **No built-in plugin refuses arguments that its checks let pass.** -/
theorem builtin_leavesChecks : ∀ p ∈ builtin.plugins, p.LeavesChecks := by
  intro p hp
  have hmem : p ∈ builtins := mem_of_mem_ofList hp
  simp only [builtins, List.mem_cons, List.not_mem_nil, or_false] at hmem
  -- One plugin after the other, in the order of `builtins`.
  rcases hmem with rfl | rfl | rfl | rfl | rfl | rfl | rfl | rfl | rfl | rfl | rfl | rfl | rfl |
    rfl | rfl | rfl
  · exact Plugin.leavesChecks_setInstanceFact
  · exact Plugin.leavesChecks_delInstanceFact
  · exact Plugin.leavesChecks_updateInstanceFact
  · exact Plugin.leavesChecks_recorder _ _ _ _ _
  · exact Plugin.leavesChecks_recorder _ _ _ _ _
  · exact Plugin.leavesChecks_recorder _ _ _ _ _
  · exact Plugin.leavesChecks_recorder _ _ _ _ _
  · exact Plugin.leavesChecks_addVersionInfo
  · exact Plugin.leavesChecks_findInDict
  · exact Plugin.leavesChecks_findElements
  · exact Plugin.leavesChecks_finder _ _ _
  · exact Plugin.leavesChecks_finder _ _ _
  · exact Plugin.leavesChecks_finder _ _ _
  · exact Plugin.leavesChecks_finder _ _ _
  · exact Plugin.leavesChecks_printVar
  · exact Plugin.leavesChecks_assertPlugin

end Registry

end SoftwareCensus
