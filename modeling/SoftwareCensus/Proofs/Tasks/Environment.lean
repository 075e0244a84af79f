import SoftwareCensus.Proofs.Tasks.Dependence

/-!
# Environments of Calls

A plugin that is called somewhere inside a run sees the entries of the layers that were there when
the run began, of the layer of each task around the call, from the outermost to the innermost, and of
nothing else. A later layer wins. The layer of a task is the one for the item that the task is at, so
layers of other items, of earlier tasks and of what failed are gone. That these entries are what the
plugin is handed is said by what becomes of the call, and by what a run depends on.

## Main results

* `environment_law` : no part of a run leaves a layer behind
* `Invokes.environment_eq` : the layers that a call sees
* `plugin_environment` : the environment that every call of a run hands to its plugin
-/

namespace SoftwareCensus

/-! ## Layers -/

namespace Fields

/-- Of several layers the innermost that has a key has its value. -/
theorem get?_foldl_extend (fields : Fields) (layers : List Fields) (key : String) :
    (layers.foldl extend fields).get? key =
      (layers.reverse.findSome? fun layer => get? layer.reverse key).or (fields.get? key) := by
  -- By induction on the layers, over what they are put on.
  induction layers generalizing fields with
  | nil => rfl
  | cons layer rest ih =>
    rw [List.foldl_cons, ih, get?_extend_reverse, List.reverse_cons, List.findSome?_append,
      Option.or_assoc, List.findSome?_cons]
    cases get? layer.reverse key <;> rfl

end Fields

namespace Tasks

open Run Interpreter

namespace Session

variable (s : Session)

/-- A layer that is pushed is the innermost one. -/
@[simp]
theorem environment_pushed (layer : Option Fields) :
    (s.pushed layer).context.environment = s.context.environment ++ layer.toList := by
  cases layer with
  | none => exact (List.append_nil _).symm
  | some layer => rfl

/-- Bindings are no layers. -/
@[simp]
theorem environment_bound (bindings : List (String × Document)) :
    (s.bound bindings).context.environment = s.context.environment := by
  induction bindings generalizing s with
  | nil => rfl
  | cons entry rest ih => exact ih (s.changed (·.set entry.1 entry.2))

end Session

/-- The layers that were there are there again at the end of everything. -/
theorem environment_law :
    RunLaw fun s _ after => after.context.environment = s.context.environment where
  refl := rfl
  trans hfirst hnext := hnext.trans hfirst
  quiet _ := rfl
  called := rfl
  facts := rfl
  registered := rfl
  binding {s after outcome name d} h := by
    cases hbefore : s.context.overlay.get? name <;> exact h
  -- Pushing and popping are inverse if what stands between them leaves the layers alone.
  layer h := (congrArg List.dropLast h).trans List.dropLast_concat
  waits hfirst hnext := hnext.trans hfirst
  ignored _ h := h
  misnamed h := h
  unnameable _ h := h

namespace Loop

variable {l : Loop} {i : Interpreter} {levels index k : Nat} {d : Document} {s site : Session}
  {layer : Option Fields}

/-- No item leaves a layer behind, whatever comes of it. -/
theorem OfEntry.environment_before (h : l.OfEntry i levels index d s) (k : Nat) :
    (l.before k).context.environment = s.context.environment :=
  l.before_of_law environment_law
    (P := fun mid => mid.context.environment = s.context.environment)
    (fun tasks => h.inner ▸ environment_law.runTasks i levels tasks)
    (fun hstep hmid => hstep.trans hmid) id (Nat.zero_le k)
    (congrArg (·.context.environment) h.start)

/-- What a task does for an item sees the layer of the item besides those around the task. -/
theorem Reaches.environment (h : l.Reaches k layer site) (hentry : l.OfEntry i levels index d s) :
    site.context.environment = s.context.environment ++ layer.toList := by
  obtain ⟨vars, -, hsite⟩ := h.site
  -- Variables and items are bound without a layer, and the items before left none.
  rw [hsite, Session.environment_bound, Session.environment_pushed, scope, Session.environment_bound,
    hentry.environment_before]

end Loop

namespace Invokes

variable {i : Interpreter} {levels index : Nat} {tasks : List Document} {s : Session}
  {v : Invocation}

/-- The layers that are there at a call are those of before the run and those around the call. -/
theorem environment_site (h : Invokes i levels index tasks s v) :
    v.site.context.environment = s.context.environment ++ v.layers := by
  -- By induction on the place of the call: the tasks around it add their layers from outside.
  induction h with
  -- The tasks before it have left no layer behind.
  | @later levels index d _ s _ _ first _ ih =>
    have hfirst := environment_law.runEntry i (environment_law.runTasks i levels) index d s
    rw [first] at hfirst
    rw [ih, hfirst]
  | call entry reached => exact reached.environment entry
  | block entry reached _ _ ih =>
    exact ih.trans (by rw [reached.environment entry, List.append_assoc]; rfl)
  | @inclusion levels index k d file rest tasks s site mid l layer v entry reached _ included _ ih =>
    -- Nor has the reading of a file.
    have hincluded := environment_law.included i l.task.label file site
    rw [included] at hincluded
    refine ih.trans ?_
    rw [hincluded, reached.environment entry, List.append_assoc]
    rfl

/-- The environment of a call is that of the session in which it is made. -/
theorem call_environment (h : Invokes i levels index tasks s v) :
    v.call.environment = v.site.context.environmentEntries := by
  induction h with
  | call => rfl
  | later _ _ ih => exact ih
  | block _ _ _ _ ih => exact ih
  | inclusion _ _ _ _ _ ih => exact ih

/-- **The environment of a call**: the layers of before the run and those of the tasks around the
call, where the inner ones win. -/
theorem environment_eq (h : Invokes i levels index tasks s v) :
    v.call.environment = (s.context.environment ++ v.layers).foldl Fields.extend [] := by
  rw [h.call_environment, Context.environmentEntries, h.environment_site]

end Invokes

/-- **The environment of every call of a run**, at every depth of loops, blocks and inclusions,
consists of the layers that were there when the run began and those of the tasks around the call, the
task of the call last. Of several values of one key that of the innermost layer is seen.

This is what the plugin is handed: at the call, it is run with this environment and its answer is
settled. The calls are those that the journal of the run tells, and there are no others: a run with
plugins that answer these calls alike is the same run, whatever they answer when they are handed
something else. -/
theorem plugin_environment (i : Interpreter) (levels : Nat) (tasks : List Document) (s : Session) :
    (∀ v, Invokes i levels 0 tasks s v →
      v.call.environment = (s.context.environment ++ v.layers).foldl Fields.extend [] ∧
      (∀ key, v.call.environment.get? key =
        (s.context.environment ++ v.layers).reverse.findSome? fun layer =>
          Fields.get? layer.reverse key) ∧
      i.callPlugin v.task v.plugin v.args v.site =
        settle v.task v.plugin v.limit (v.plugin.run v.call)
          (v.site.noted (.called v.plugin.name v.call.environment))) ∧
    (∀ plugin environment before,
      s.journal <:+ before ∧
          .called plugin environment :: before <:+ (i.runTasks levels tasks s).2.journal ↔
        ∃ v, Invokes i levels 0 tasks s v ∧ v.site.journal = before ∧ v.plugin.name = plugin ∧
          v.call.environment = environment) ∧
    ∀ answer : Plugin → Plugin.Call → Plugin.Ending,
      (∀ v, Invokes i levels 0 tasks s v → answer v.plugin v.call = v.plugin.run v.call) →
        (i.answering answer).runTasks levels tasks s = i.runTasks levels tasks s := by
  refine ⟨fun v hv => ⟨hv.environment_eq, fun key => ?_, hv.callPlugin_eq⟩,
    fun plugin environment before => ⟨?_, ?_⟩, fun answer => i.runTasks_answering levels tasks s⟩
  · rw [hv.environment_eq, Fields.get?_foldl_extend]
    exact Option.or_none
  · -- What the journal tells is a call of the list,
    rintro ⟨hbefore, hcalled⟩
    exact (i.told_runTasks levels tasks s).of_called hbefore hcalled
  · -- and a call of the list is told by the journal.
    rintro ⟨v, hv, rfl, rfl, rfl⟩
    cases levels with
    | zero => cases hv
    | succ levels => exact hv.told

/-- A plugin that returns nothing, or fails if it is asked to. -/
private def fallible : Plugin where
  name := "try"
  args := .mapping
  run call := call.answer (if (call.arg? "fail").isSome then .error (.execution "failed") else .ok .null)

/-- A loop over a block, whose first task fails with a layer of its own. -/
private def layered : Document :=
  .map [("block", .list [
      .map [("environment", .map [("c", .str "lost")]), ("ignore_errors", .bool true),
        ("try", .map [("fail", .null)])],
      .map [("environment", .map [("b", .str "inner")]), ("try", .map [])]]),
    ("environment", .map [("a", .str "\x7b\x7b __item__ \x7d\x7d"), ("b", .str "outer")]),
    ("loop", .list [.str "first", .str "second"])]

private def trying : Interpreter := ⟨⟨[fallible]⟩, fun _ => default, none, none, 2⟩

/-- A run begins with one layer, whose first entry the layer of the loop covers. -/
private def covered : Session where
  context := { environment := [[("a", .str "hidden"), ("d", .str "there")]] }

/-- The entries that a call sees. -/
private def seen? : Event → Option (List (String × Option String))
  | .called _ environment => some (environment.map fun (key, d) => (key, d.asStr?))
  | _ => none

example :
    (trying.runTasks 2 [layered] covered).2.journal.filterMap seen? =
      [[("a", some "second"), ("b", some "inner"), ("d", some "there")],
        [("a", some "second"), ("b", some "outer"), ("c", some "lost"), ("d", some "there")],
        [("a", some "first"), ("b", some "inner"), ("d", some "there")],
        [("a", some "first"), ("b", some "outer"), ("c", some "lost"), ("d", some "there")]] := by
  decide +kernel

/-- One call of the run sees the entries of its own task and those of the loop, and none of the task
before it; with these it is handed to the plugin. -/
theorem plugin_environment_layered :
    ∃ v, Invokes trying 2 0 [layered] covered v ∧
      seen? (.called v.plugin.name v.call.environment) =
        some [("a", some "second"), ("b", some "inner"), ("d", some "there")] ∧
      v.call.environment =
        (covered.context.environment ++ v.layers).foldl Fields.extend [] ∧
      trying.callPlugin v.task v.plugin v.args v.site =
        settle v.task v.plugin v.limit (v.plugin.run v.call)
          (v.site.noted (.called v.plugin.name v.call.environment)) := by
  obtain ⟨hlayers, hcalls, -⟩ := plugin_environment trying 2 [layered] covered
  -- The journal of the run tells a call with these entries.
  have hany : ((trying.runTasks 2 [layered] covered).2.journal.any fun event => seen? event ==
      some [("a", some "second"), ("b", some "inner"), ("d", some "there")]) = true := by
    decide +kernel
  obtain ⟨event, hmem, hseen⟩ := List.any_eq_true.mp hany
  cases event with
  | called plugin environment =>
    obtain ⟨later, before, hjournal⟩ := List.append_of_mem hmem
    obtain ⟨v, hv, -, rfl, rfl⟩ :=
      (hcalls plugin environment before).mp ⟨List.nil_suffix, later, hjournal.symm⟩
    obtain ⟨henvironment, -, hhanded⟩ := hlayers v hv
    exact ⟨v, hv, beq_iff_eq.mp hseen, henvironment, hhanded⟩
  | _ => cases hseen

end Tasks
end SoftwareCensus
