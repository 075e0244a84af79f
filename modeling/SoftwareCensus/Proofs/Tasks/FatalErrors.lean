import SoftwareCensus.Proofs.Tasks.RunLaw

/-!
# Errors That End Runs

An error that no task may ask to ignore ends every list of tasks that it comes out of, through blocks,
inclusions and loops, whatever the tasks around it ask for. There is one way in which it gets lost:
the name under which its task registers its result cannot be rendered. The error of the name takes
its place then, and that one may be ignored.

## Main results

* `fatality_law` : what ends a part of a run tells of the fatal failures in it
* `fatal_failure_ends_run` : a fatal failure ends the whole run with a fatal error, or was displaced
-/

namespace SoftwareCensus.Tasks

open Run

/-- Whether an event is a failure that no task may ask to ignore. -/
def Event.isFatal : Event → Bool
  | .failed e => !e.isIgnorable
  | _ => false

/-- Whether a fatal failure was followed at once by one of the name to register. -/
def Displaced (events : List Event) : Prop :=
  ∃ (t : Definition) (c : Context) (why : Template.Error) (lost : Error),
    t.Unnameable c why ∧ lost.isIgnorable = false ∧
      [.failed (.template t.label why), .failed lost] <:+: events

/-- An error that got lost in a part of the events got lost in all of them. -/
theorem Displaced.mono {events more : List Event} (h : Displaced events) (hpart : events <:+: more) :
    Displaced more := by
  obtain ⟨t, c, why, lost, hwhy, hlost, hevents⟩ := h
  exact ⟨t, c, why, lost, hwhy, hlost, hevents.trans hpart⟩

/-- How the error that a part of a run ended with tells of the fatal failures in it. -/
inductive Heard (events : List Event) (outcome : Option Error) : Prop where
  /-- One got lost, perhaps by the error at the end, which is not noted yet. -/
  | displaced (h : Displaced (outcome.toList.map .failed ++ events))
  | fatal {e : Error} (hends : outcome = some e) (hfatal : e.isIgnorable = false)
  /-- There is none. -/
  | mild (h : ∀ event ∈ events, event.isFatal = false)

namespace Heard

variable {events later : List Event} {event : Event} {outcome : Option Error} {e : Error}

/-- Where nothing was noted, nothing fatal was. -/
theorem nil : Heard [] outcome := .mild fun _ h => absurd h List.not_mem_nil

/-- One event that is not fatal says nothing about the end. -/
theorem single (h : event.isFatal = false) : Heard [event] none :=
  .mild fun _ hmem => List.mem_singleton.mp hmem ▸ h

/-- What was noted in two parts is heard of at the end of the second. -/
theorem append (hfirst : Heard events none) (hnext : Heard later outcome) :
    Heard (later ++ events) outcome := by
  cases hfirst with
  -- The loss in the first part stands behind the later events.
  | displaced h => exact .displaced (h.mono ⟨outcome.toList.map .failed ++ later, [], by simp⟩)
  | fatal hends _ => cases hends
  -- The first part had none, so the second one decides.
  | mild hmild =>
    cases hnext with
    | displaced h => exact .displaced (h.mono ⟨[], events, by simp⟩)
    | fatal hends hfatal => exact .fatal hends hfatal
    | mild h => exact .mild fun event hmem => (List.mem_append.mp hmem).elim (h event) (hmild event)

/-- An error that may be ignored is noted, and the list goes on. -/
theorem note (h : Heard events (some e)) (hignorable : e.isIgnorable = true) :
    Heard (.failed e :: events) none := by
  cases h with
  | displaced h => exact .displaced h
  -- An error that may be ignored is not fatal.
  | fatal hends hfatal =>
    cases hends
    cases hfatal.symm.trans hignorable
  | mild h =>
    refine .mild fun event hmem => ?_
    -- The new event is that error, and the others are mild.
    rcases List.mem_cons.mp hmem with rfl | hmem
    · simp [Event.isFatal, hignorable]
    · exact h event hmem

/-- The error waits while something is done. -/
theorem waits (h : Heard events (some e)) (hnext : Heard later none) :
    Heard (later ++ .failed e :: events) (some e) := by
  -- A fatal error is still there at the end; any other one is as good as noted.
  cases hignorable : e.isIgnorable with
  | false => exact .fatal rfl hignorable
  | true =>
    cases (h.note hignorable).append hnext with
    | displaced h => exact .displaced (h.mono ⟨[.failed e], [], by simp⟩)
    | fatal hends _ => cases hends
    | mild h => exact .mild h

/-- The error is noted, and one of the name takes its place. -/
theorem displace (h : Heard events (some e)) {t : Definition} {c : Context} {why : Template.Error}
    (hwhy : t.Unnameable c why) :
    Heard (.failed e :: events) (some (.template t.label why)) := by
  -- A fatal error gets lost here, and this is the one way in which it can.
  cases hignorable : e.isIgnorable with
  | false => exact .displaced ⟨t, c, why, e, hwhy, hignorable, [], events, rfl⟩
  | true => exact append (h.note hignorable) nil

end Heard

/-- What ends a part of a run tells of the fatal failures in it. -/
theorem fatality_law : RunLaw fun s outcome after =>
    ∃ events, after.journal = events ++ s.journal ∧ Heard events outcome where
  refl := ⟨[], rfl, .nil⟩
  trans := by
    rintro s mid after outcome ⟨events, hevents, hfirst⟩ ⟨later, hlater, hnext⟩
    exact ⟨later ++ events, by rw [hlater, hevents, List.append_assoc], hfirst.append hnext⟩
  quiet {s event} hquiet := ⟨[event], rfl, .single (by cases event <;> first | rfl | cases hquiet)⟩
  called := ⟨[_], rfl, .single rfl⟩
  facts := ⟨[], rfl, .nil⟩
  registered := ⟨[_], rfl, .single rfl⟩
  binding h := h
  layer h := h
  waits := by
    rintro s mid after e ⟨events, hevents, hfirst⟩ ⟨later, hlater, hnext⟩
    refine ⟨later ++ .failed e :: events, ?_, hfirst.waits hnext⟩
    rw [hlater, Session.journal_noted, hevents, List.append_assoc, List.cons_append]
  ignored := by
    rintro s mid e task index hignorable ⟨events, hevents, h⟩
    refine ⟨.ignored task index e :: .failed e :: events, ?_, (h.note hignorable).append (.single rfl)⟩
    simp [hevents]
  -- The error of a name that is no identifier takes its place, too, but is fatal itself.
  misnamed := by
    rintro s mid e name ⟨events, hevents, -⟩
    exact ⟨.failed e :: events, by simp [hevents], .fatal rfl rfl⟩
  unnameable := by
    rintro s mid e t why hwhy ⟨events, hevents, h⟩
    exact ⟨.failed e :: events, by simp [hevents], h.displace hwhy⟩

/-! ## Whole runs -/

namespace Interpreter

variable (i : Interpreter) {s after : Session} {e : Error}

/-- What ends a list of tasks was noted last. -/
theorem runFrom_eq_error {inner : List Document → Run Unit} {index : Nat} {tasks : List Document}
    (h : i.runFrom inner index tasks s = (.error e, after)) :
    ∃ rest, after.journal = .failed e :: rest := by
  -- By induction on the tasks; the error is that of the first one, which notes it, or comes later.
  induction tasks generalizing index s with
  | nil => cases h
  | cons d rest ih =>
    rcases bind_eq_error h with hentry | ⟨_, mid, -, hrest⟩
    · rw [runEntry, noteFailure] at hentry
      split at hentry
      next why last _ => cases hentry; exact ⟨last.journal, rfl⟩
      next => cases hentry
    · exact ih hrest

/-- A run that fails has noted its error, unless it had no level left to run at all. -/
theorem runTasks_eq_error {levels : Nat} {tasks : List Document}
    (h : i.runTasks levels tasks s = (.error e, after)) :
    e = .endless ∨ ∃ rest, after.journal = .failed e :: rest := by
  cases levels with
  | zero => cases h; exact Or.inl rfl
  | succ levels => exact Or.inr (i.runFrom_eq_error h)

end Interpreter

/-- **A fatal failure ends the run with a fatal error**, whatever the tasks around it ask for, unless
one got lost because the name to register could not be rendered. -/
theorem fatal_failure_ends_run (i : Interpreter) (levels : Nat) (tasks : List Document) (c : Context)
    {outcome : Except Error Unit} {after : Session}
    (h : i.runTasks levels tasks { context := c } = (outcome, after))
    (hfatal : ∃ event ∈ after.journal, event.isFatal = true) :
    (∃ e, outcome = .error e ∧ e.isIgnorable = false) ∨ Displaced after.journal := by
  obtain ⟨events, hevents, hheard⟩ := fatality_law.runTasks i levels tasks { context := c }
  rw [h] at hevents hheard
  obtain rfl : after.journal = events := hevents.trans (List.append_nil _)
  cases hheard with
  -- There is a fatal failure, so the run was not mild.
  | mild hmild =>
    obtain ⟨event, hmem, hevent⟩ := hfatal
    cases (hmild event hmem).symm.trans hevent
  | fatal hends hends_fatal =>
    cases outcome with
    | ok _ => cases hends
    | error e => exact Or.inl ⟨e, rfl, Option.some.inj hends ▸ hends_fatal⟩
  -- The loss is among the events, or it would begin with the error of the run itself.
  | displaced hlost =>
    cases outcome with
    | ok _ => exact Or.inr hlost
    | error e =>
      rcases i.runTasks_eq_error h with rfl | ⟨rest, hrest⟩
      · exact Or.inl ⟨.endless, rfl, rfl⟩
      · obtain ⟨t, c, why, lost, hwhy, hlost, hpair⟩ := hlost
        refine Or.inr ⟨t, c, why, lost, hwhy, hlost, ?_⟩
        change _ <:+: .failed e :: after.journal at hpair
        rcases List.infix_cons_iff.mp hpair with hfirst | hlater
        · -- What ended the run was noted already, and would be the error that got lost.
          rw [hrest, List.cons_prefix_cons, List.cons_prefix_cons] at hfirst
          obtain ⟨hname, hagain, -⟩ := hfirst
          cases hname.trans hagain.symm
          cases hlost
        · exact hlater

private def refusal : Plugin where
  name := "refuse"
  args := .mapping
  run call := call.answer (.error (.assertion "refused"))

private def refusing : Interpreter := ⟨⟨[refusal]⟩, fun _ => default, none, none, 2⟩

/-- A run of a task that refuses, in a block that asks to ignore errors. -/
private def leniently (register : String) : Except Error Unit × Session :=
  refusing.runTasks 2 [.map [("block", .list [.map [("refuse", .map []),
    ("register", .str register)]]), ("ignore_errors", .bool true)]] { context := {} }

theorem fatal_failure_ends_run_refusing :
    (∃ event ∈ (leniently "answer").2.journal, event.isFatal = true) ∧
      ((∃ e, (leniently "answer").1 = .error e ∧ e.isIgnorable = false) ∨
        Displaced (leniently "answer").2.journal) :=
  ⟨by decide +kernel, fatal_failure_ends_run refusing 2 _ {} rfl (by decide +kernel)⟩

/-- The name to register is no template, and the run ends well. -/
theorem fatal_failure_displaced :
    (∃ event ∈ (leniently "\x7b\x7b").2.journal, event.isFatal = true) ∧
      failure? (leniently "\x7b\x7b").1 = none := by
  decide +kernel

end SoftwareCensus.Tasks
