import SoftwareCensus.Proofs.Discovery.Sweep
import SoftwareCensus.Proofs.Tasks.Scoping

/-!
# Isolation of Signatures

Signatures run one after another on one context and one pool. The context that a signature leaves is
the one that it found: what its variables, its instances and their tasks bound is unbound again. So
all that a signature knows of those before it is the pool, and from the same pool it comes to the same
verdicts, whatever was recorded before.

## Main results

* `Engine.forgetful_runSignatures` : a run does not look at what was recorded before it
* `Engine.runSignatures_context` : a run leaves the context that it found
* `Engine.signatures_isolated` : from the same pool a signature comes to the same verdicts, and the
  signatures after it change nothing
-/

namespace SoftwareCensus.Discovery.Engine

open Tasks Tasks.Interpreter

/-! ## States side by side -/

/-- Whether two states look the same to a step. What was recorded so far may differ. -/
structure State.Alike (st other : State) : Prop where
  context_eq : st.context = other.context
  pool_eq : st.pool = other.pool

/-- Two steps from two states come to the same, and record the same verdicts. -/
structure SameCourse {α : Type} (result other : Except Error α × State)
    (recorded recorded' : List Verdict) : Prop where
  outcome_eq : result.1 = other.1
  alike : result.2.Alike other.2
  recorded : ∃ added, result.2.verdicts = added ++ recorded ∧ other.2.verdicts = added ++ recorded'

/-- Whether a step does the same in states that are alike. -/
def Forgetful {α : Type} (act : Step α) : Prop :=
  ∀ st other : State, st.Alike other → SameCourse (act st) (act other) st.verdicts other.verdicts

namespace Forgetful

variable {α β : Type}

theorem pure (a : α) : Forgetful (Pure.pure a : Step α) :=
  fun _ _ h => ⟨rfl, h, [], rfl, rfl⟩

theorem throw (err : Error) : Forgetful (MonadExcept.throw err : Step α) :=
  fun _ _ h => ⟨rfl, h, [], rfl, rfl⟩

theorem bind {first : Step α} {next : α → Step β} (hfirst : Forgetful first)
    (hnext : ∀ a, Forgetful (next a)) : Forgetful (first >>= next) := by
  intro st other h
  obtain ⟨houtcome, halike, added, hadded, hadded'⟩ := hfirst st other h
  rw [bind_apply, bind_apply]
  cases hst : first st with
  | mk outcome mid =>
    cases hother : first other with
    | mk outcome' mid' =>
      simp only [hst, hother] at houtcome halike hadded hadded'
      subst houtcome
      -- An error ends both, with what was recorded by then.
      cases outcome with
      | error err => exact ⟨rfl, halike, added, hadded, hadded'⟩
      | ok a =>
        -- The verdicts of the second step come on top of those of the first.
        obtain ⟨hend, hlast, more, hmore, hmore'⟩ := hnext a _ _ halike
        refine ⟨hend, hlast, more ++ added, ?_, ?_⟩
        · rw [hmore, hadded, List.append_assoc]
        · rw [hmore', hadded', List.append_assoc]

/-- A step may depend on the context that it begins in. -/
theorem bindState {next : State → Step α} (hnext : ∀ st, Forgetful (next st))
    (hsame : ∀ {st other : State}, st.Alike other → next st = next other) :
    Forgetful (get >>= next) := by
  intro st other h
  show SameCourse (next st st) (next other other) _ _
  rw [← hsame h]
  exact hnext st st other h

end Forgetful

section Steps

variable (e : Engine) (scene : Scene) (s : Signature)

theorem forgetful_changeContext (f : Context → Context) : Forgetful (changeContext f) :=
  fun _ _ h => ⟨rfl, ⟨congrArg f h.context_eq, h.pool_eq⟩, [], rfl, rfl⟩

/-- The tasks of an instance begin with the context alone, so they end alike. -/
theorem forgetful_judge (i : Instance) : Forgetful (e.judge s i) := by
  intro st other h
  obtain ⟨context, pool, verdicts, journal⟩ := st
  obtain ⟨context', pool', verdicts', journal'⟩ := other
  obtain rfl : context = context' := h.context_eq
  obtain rfl : pool = pool' := h.pool_eq
  unfold judge
  dsimp only
  -- What the tasks come to depends on the context alone, and that is the same by now.
  generalize e.instanceFacts s i { context } = result
  obtain ⟨outcome, session⟩ := result
  dsimp only
  generalize e.fateOf s (placeOf s i.seed) outcome = fate
  cases fate with
  | error err => exact ⟨rfl, ⟨rfl, rfl⟩, [], rfl, rfl⟩
  | ok fate => exact ⟨rfl, ⟨rfl, rfl⟩, [⟨i.seed, fate⟩], rfl, rfl⟩

theorem forgetful_judgeAll (instances : List Instance) : Forgetful (e.judgeAll s instances) := by
  induction instances with
  | nil => exact .pure ()
  | cons i rest ih => exact (forgetful_judge e s i).bind fun _ => ih

theorem forgetful_detectSeeds : Forgetful (detectSeeds scene s) := by
  unfold detectSeeds
  cases Detector.ofSignature s with
  | error err => exact .throw _
  | ok d =>
    intro st other h
    have hsame : d.detect scene.forest st.pool = d.detect scene.forest other.pool := by
      rw [h.pool_eq]
    show SameCourse (.ok (d.detect scene.forest st.pool).1, _)
      (.ok (d.detect scene.forest other.pool).1, _) _ _
    exact ⟨by rw [hsame], ⟨h.context_eq, congrArg Prod.snd hsame⟩, [], rfl, rfl⟩

theorem forgetful_runSignature : Forgetful (e.runSignature scene s) := by
  unfold runSignature
  refine (forgetful_detectSeeds scene s).bind fun seeds => ?_
  -- Without seeds nothing more is done.
  split
  · exact .pure ()
  · cases enrich scene.forest scene.inventory s seeds with
    | error err => exact .throw _
    | ok instances =>
      refine .bindState (fun st => ?_) fun h => by rw [h.context_eq]
      refine (forgetful_changeContext _).bind fun _ => ?_
      exact (forgetful_judgeAll e s instances).bind fun _ => forgetful_changeContext _

/-- **A run does not look at what was recorded before it.** -/
theorem forgetful_runSignatures (signatures : List Signature) :
    Forgetful (e.runSignatures scene signatures) := by
  induction signatures with
  | nil => exact .pure ()
  | cons s rest ih => exact (forgetful_runSignature e scene s).bind fun _ => ih

end Steps

/-! ## The context between signatures -/

/-- A context between two instances of a signature: only what is bound may differ from the context
before the signature. -/
structure Between (before c : Context) : Prop where
  base_eq : c.base = before.base
  environment_eq : c.environment = before.environment
  facts_eq : c.facts = .null
  ascending : c.overlay.Ascending

/-- Going back to the bindings of before leaves nothing that differs. -/
theorem Between.restore {before c : Context} (h : Between before c) (hfacts : before.facts = .null) :
    c.restore before.checkpoint = before := by
  -- The base, the environment and the facts are those of before; the overlay is what the checkpoint
  -- brings back.
  obtain ⟨base, overlay, facts, environment⟩ := c
  obtain ⟨base', overlay', facts', environment'⟩ := before
  obtain rfl : base = base' := h.base_eq
  obtain rfl : environment = environment' := h.environment_eq
  obtain rfl : facts = .null := h.facts_eq
  obtain rfl : facts' = .null := hfacts
  simp [Context.restore, Context.checkpoint]

section Contexts

variable {e : Engine} {scene : Scene} {s : Signature} {st after : State} {before : Context}

/-- The tasks of an instance keep the frame that a run of tasks keeps. -/
theorem framed_instanceFacts (e : Engine) (s : Signature) (i : Instance) {session : Session}
    (h : session.context.overlay.Ascending) :
    Framed session (e.instanceFacts s i session).2 := by
  have hrun := framing_law.runTasks e.interpreter e.levels
  refine framing_law.bind (RunLaw.change fun _ => framing_law.facts) (fun _ => ?_) session h
  refine framing_law.bind (hrun e.options.preTasks) fun _ => ?_
  refine framing_law.bind (hrun s.customTasks) fun _ => ?_
  refine framing_law.bind (hrun e.options.postTasks) fun _ => ?_
  exact RunLaw.bindContext fun _ hsession => .refl hsession

theorem Between.judge {i : Instance} (hst : Between before st.context)
    (h : e.judge s i st = (.ok (), after)) : Between before after.context := by
  have hframe : Framed { context := st.context }
      (e.instanceFacts s i { context := st.context }).2 := framed_instanceFacts e s i hst.ascending
  unfold Engine.judge at h
  generalize e.instanceFacts s i { context := st.context } = result at h hframe
  obtain ⟨outcome, session⟩ := result
  cases hfate : e.fateOf s (placeOf s i.seed) outcome with
  | error err =>
    simp only [hfate] at h
    cases h
  | ok fate =>
    simp only [hfate] at h
    obtain ⟨-, rfl⟩ := Prod.mk.inj h
    -- The facts are taken away behind the tasks, and the rest is in the frame.
    exact {
      base_eq := hframe.base_eq.trans hst.base_eq
      environment_eq := hframe.environment_eq.trans hst.environment_eq
      facts_eq := rfl
      ascending := hframe.ascending }

theorem Between.judgeAll {instances : List Instance} (hst : Between before st.context)
    (h : e.judgeAll s instances st = (.ok (), after)) : Between before after.context := by
  induction instances generalizing st with
  | nil =>
    obtain rfl : st = after := (Prod.mk.inj h).2
    exact hst
  | cons i rest ih =>
    obtain ⟨_, mid, hjudge, hrest⟩ := bind_eq_ok h
    exact ih (hst.judge hjudge) hrest

/-- Binding the variables of a signature keeps the frame. -/
theorem Between.bindAll (vars : Fields) {c : Context} (h : Between before c) :
    Between before (vars.foldl (fun c (name, d) => c.set name d) c) := by
  induction vars generalizing c with
  | nil => exact h
  | cons entry rest ih =>
    exact ih ⟨h.base_eq, h.environment_eq, h.facts_eq, h.ascending.insert entry.1 entry.2⟩

theorem context_detectSeeds {seeds : List Seed} (h : detectSeeds scene s st = (.ok seeds, after)) :
    after.context = st.context := by
  unfold detectSeeds at h
  cases hd : Detector.ofSignature s with
  | error err =>
    rw [hd] at h
    cases h
  | ok d =>
    rw [hd] at h
    obtain ⟨-, rfl⟩ := Prod.mk.inj h
    rfl

/-- **A signature leaves the context that it found.** -/
theorem runSignature_context (hst : Between st.context st.context)
    (h : e.runSignature scene s st = (.ok (), after)) : after.context = st.context := by
  unfold runSignature at h
  obtain ⟨seeds, mid, hdetect, hrest⟩ := bind_eq_ok h
  have hmid := context_detectSeeds hdetect
  -- A signature without seeds binds nothing.
  split at hrest
  case isTrue =>
    obtain rfl : mid = after := (Prod.mk.inj hrest).2
    exact hmid
  case isFalse =>
    cases henrich : enrich scene.forest scene.inventory s seeds with
    | error err =>
      rw [henrich] at hrest
      cases hrest
    | ok instances =>
      rw [henrich] at hrest
      obtain ⟨found, bound, hbound, hrest⟩ := bind_eq_ok hrest
      obtain ⟨_, opened, hopened, hrest⟩ := bind_eq_ok hrest
      obtain ⟨_, judged, hjudged, hclosed⟩ := bind_eq_ok hrest
      obtain ⟨hfound, rfl⟩ := Prod.mk.inj hbound
      obtain rfl : mid = found := Except.ok.inj hfound
      obtain ⟨-, rfl⟩ := Prod.mk.inj hopened
      obtain ⟨-, rfl⟩ := Prod.mk.inj hclosed
      -- From the bindings of the signature to those of its last instance, the frame is kept.
      have hmidway : Between st.context mid.context := hmid ▸ hst
      have hjudged : Between st.context judged.context :=
        (hmidway.bindAll s.vars).judgeAll hjudged
      show judged.context.restore mid.context.checkpoint = st.context
      rw [hmid]
      exact hjudged.restore hst.facts_eq

/-- **A run leaves the context that it found.** -/
theorem runSignatures_context {signatures : List Signature} (hst : Between st.context st.context)
    (h : e.runSignatures scene signatures st = (.ok (), after)) : after.context = st.context := by
  induction signatures generalizing st with
  | nil =>
    obtain rfl : st = after := (Prod.mk.inj h).2
    rfl
  | cons s rest ih =>
    obtain ⟨_, mid, hfirst, hrest⟩ := bind_eq_ok h
    have hmid := runSignature_context hst hfirst
    rw [← hmid]
    exact ih (hmid.symm ▸ hst) hrest

theorem between_start (e : Engine) (scene : Scene) :
    Between (e.start scene).context (e.start scene).context :=
  ⟨rfl, rfl, rfl, List.Pairwise.nil⟩

end Contexts

/-! ## What a run decides on the way -/

variable (e : Engine) (inventory : Inventory)

/-- The state in which a run has gone through signatures. -/
def stateAfter (signatures : List Signature) : State :=
  (e.runSignatures (sceneOf inventory) signatures (e.start (sceneOf inventory))).2

/-- What a run decides on the instances of a signature that comes after others. -/
def verdictsOf (before : List Signature) (s : Signature) : List Verdict :=
  (e.stateAfter inventory (before ++ [s])).verdicts.reverse.drop
    (e.stateAfter inventory before).verdicts.length

variable {e inventory} {before rest : List Signature} {s : Signature} {id : RunId} {r : Report}

theorem runSignatures_append {scene : Scene} {st : State} :
    e.runSignatures scene (before ++ rest) st =
      (e.runSignatures scene before >>= fun _ => e.runSignatures scene rest) st := by
  -- By induction on the first signatures: an error in one of them ends the run on both sides.
  induction before generalizing st with
  | nil => rfl
  | cons s before ih =>
    rw [List.cons_append, runSignatures, runSignatures, bind_apply, bind_apply, bind_apply]
    cases e.runSignature scene s st with
    | mk outcome mid =>
      cases outcome with
      | error err => rfl
      | ok _ =>
        show e.runSignatures scene (before ++ rest) mid = _
        rw [ih, bind_apply]

/-- A run that comes to its end went through the first of its signatures, and from there through the
others. -/
theorem run_append_eq_ok (h : e.run inventory ⟨before ++ rest⟩ id = .ok r) :
    e.runSignatures (sceneOf inventory) before (e.start (sceneOf inventory)) =
        (.ok (), e.stateAfter inventory before) ∧
      e.runSignatures (sceneOf inventory) rest (e.stateAfter inventory before) =
        (.ok (), e.stateAfter inventory (before ++ rest)) ∧
      r = reportOf id (e.stateAfter inventory (before ++ rest)) := by
  obtain ⟨-, st, hrun, rfl⟩ := run_eq_ok_iff.mp h
  have hlast : e.stateAfter inventory (before ++ rest) = st := congrArg Prod.snd hrun
  rw [runSignatures_append] at hrun
  obtain ⟨_, mid, hbefore, hrest⟩ := bind_eq_ok hrun
  obtain rfl : e.stateAfter inventory before = mid := congrArg Prod.snd hbefore
  exact ⟨hbefore, hrest.trans (by rw [hlast]), by rw [hlast]⟩

/-- In the middle of such a run there is one signature, between two states of the run. -/
theorem run_signature_eq_ok (h : e.run inventory ⟨before ++ s :: rest⟩ id = .ok r) :
    e.runSignature (sceneOf inventory) s (e.stateAfter inventory before) =
        (.ok (), e.stateAfter inventory (before ++ [s])) ∧
      e.runSignatures (sceneOf inventory) rest (e.stateAfter inventory (before ++ [s])) =
        (.ok (), e.stateAfter inventory (before ++ s :: rest)) := by
  obtain ⟨hbefore, hrest, -⟩ := run_append_eq_ok h
  obtain ⟨⟨⟩, mid, hs, hlater⟩ := bind_eq_ok hrest
  -- The state behind the signature is where a run of the catalog that ends with it would stop.
  have hmid : e.stateAfter inventory (before ++ [s]) = mid := by
    rw [stateAfter, runSignatures_append, bind_apply, hbefore]
    show ((e.runSignature (sceneOf inventory) s >>= fun _ => pure ())
      (e.stateAfter inventory before)).2 = mid
    rw [bind_apply, hs]
    rfl
  rw [hmid]
  exact ⟨hs, hlater⟩

/-- Between two signatures the context of a run is the one that it began with. -/
theorem context_stateAfter (h : e.run inventory ⟨before ++ rest⟩ id = .ok r) :
    (e.stateAfter inventory before).context = (e.start (sceneOf inventory)).context :=
  runSignatures_context (between_start e _) (run_append_eq_ok h).1

/-- What a signature records is what the run decides on it. -/
theorem verdictsOf_eq {added : List Verdict}
    (h : (e.stateAfter inventory (before ++ [s])).verdicts =
      added.reverse ++ (e.stateAfter inventory before).verdicts) :
    e.verdictsOf inventory before s = added := by
  rw [verdictsOf, h, List.reverse_append, List.reverse_reverse, ← List.length_reverse,
    List.drop_left]

/-- The verdicts of a report: those of the signatures before one, its own, and those of the others. -/
theorem run_verdicts_split (h : e.run inventory ⟨before ++ s :: rest⟩ id = .ok r) :
    ∃ later, r.verdicts = (e.stateAfter inventory before).verdicts.reverse ++
      e.verdictsOf inventory before s ++ later := by
  obtain ⟨hs, hrest⟩ := run_signature_eq_ok h
  obtain ⟨-, own, -, -, hown, -⟩ := runSignature_spec hs
  obtain ⟨later, -, hlater⟩ := runSignatures_sweep hrest
  refine ⟨later, ?_⟩
  rw [(run_append_eq_ok h).2.2, verdictsOf_eq hown]
  show (e.stateAfter inventory (before ++ s :: rest)).verdicts.reverse = _
  -- A state has its verdicts last one first, a report first one first.
  rw [hlater, hown, List.reverse_append, List.reverse_append, List.reverse_reverse,
    List.reverse_reverse]

/-! ## Isolation -/

/-- A check that accepts a catalog accepts a part of it. -/
theorem check_sublist {signatures others : List Signature} (h : e.check ⟨signatures⟩ = .ok ())
    (hsub : others ⊆ signatures) : e.check ⟨others⟩ = .ok () := by
  rw [check_eq_ok_iff] at h ⊢
  exact ⟨h.1, h.2.1, fun s hs => h.2.2 s (hsub hs)⟩

/-- **Signatures are isolated from each other** except through the pool. A signature that finds the
same pool in two runs comes to the same verdicts in both and leaves the same pool, whatever the
signatures before it did; its verdicts stand in the reports, and so do the documents and the failures
in them. Signatures that are added at the end of a catalog leave what was reported before them. -/
theorem signatures_isolated (e : Engine) (inventory : Inventory) :
    (∀ {before before' rest rest' : List Signature} {s : Signature} {id id' : RunId} {r r' : Report},
      e.run inventory ⟨before ++ s :: rest⟩ id = .ok r →
      e.run inventory ⟨before' ++ s :: rest'⟩ id' = .ok r' →
      (e.stateAfter inventory before).pool = (e.stateAfter inventory before').pool →
      e.verdictsOf inventory before s = e.verdictsOf inventory before' s ∧
        (e.stateAfter inventory (before ++ [s])).pool =
          (e.stateAfter inventory (before' ++ [s])).pool ∧
        (∃ later, r.verdicts = (e.stateAfter inventory before).verdicts.reverse ++
          e.verdictsOf inventory before s ++ later) ∧
        ∃ later, r'.verdicts = (e.stateAfter inventory before').verdicts.reverse ++
          e.verdictsOf inventory before' s ++ later) ∧
    ∀ {signatures more : List Signature} {id id' : RunId} {r' : Report},
      e.run inventory ⟨signatures ++ more⟩ id' = .ok r' →
      ∃ r, e.run inventory ⟨signatures⟩ id = .ok r ∧ r.verdicts <+: r'.verdicts ∧
        r.software <+: r'.software ∧ r.failures <+: r'.failures := by
  constructor
  · intro before before' rest rest' s id id' r r' h h' hpool
    -- Both signatures begin with the context of the start, so only the pool could differ.
    have hcontext : (e.stateAfter inventory before).context =
        (e.stateAfter inventory before').context :=
      (context_stateAfter h).trans (context_stateAfter h').symm
    obtain ⟨-, halike, added, hadded, hadded'⟩ :=
      forgetful_runSignature e (sceneOf inventory) s _ _ ⟨hcontext, hpool⟩
    rw [(run_signature_eq_ok h).1] at halike hadded
    rw [(run_signature_eq_ok h').1] at halike hadded'
    have hsame : e.verdictsOf inventory before s = e.verdictsOf inventory before' s := by
      rw [← List.reverse_reverse added] at hadded hadded'
      rw [verdictsOf_eq hadded, verdictsOf_eq hadded']
    exact ⟨hsame, halike.pool_eq, run_verdicts_split h, run_verdicts_split h'⟩
  · intro signatures more id id' r' h
    obtain ⟨hfirst, hmore, rfl⟩ := run_append_eq_ok h
    -- A part of a catalog that is accepted is accepted.
    have hcheck : e.check ⟨signatures⟩ = .ok () :=
      check_sublist (run_eq_ok_iff.mp h).1 (List.subset_append_left _ _)
    obtain ⟨added, -, hadded⟩ := runSignatures_sweep hmore
    have hverdicts : (reportOf id (e.stateAfter inventory signatures)).verdicts <+:
        (reportOf id' (e.stateAfter inventory (signatures ++ more))).verdicts := by
      refine ⟨added, ?_⟩
      simp only [reportOf, hadded, List.reverse_append, List.reverse_reverse]
    refine ⟨_, run_eq_ok_iff.mpr ⟨hcheck, _, hfirst, rfl⟩, hverdicts, ?_, ?_⟩
    · exact hverdicts.filterMap Verdict.document?
    · exact (hverdicts.filterMap Verdict.failureEntries?).map Document.ofFields

private def plain : Engine := ⟨.builtin, default, {}, "now", 1⟩

/-- A signature with variables of its own, whose tasks bind a result and retract the instance. -/
private def preview : Signature :=
  { name := "preview", cmdRegexp := ".", vars := [("port", .int 80)],
    customTasks := [.ofFields
      [("set_instance_fact", .ofFields [(retractionSentinel, .bool true)]),
        ("register", .str "seen")]] }

private def release : Signature := { name := "release", cmdRegexp := "." }

private def machine : Inventory :=
  { processes := [{ pid := ⟨"1"⟩, cmdline := "init" }, { pid := ⟨"4"⟩, ppid := ⟨"1"⟩ }] }

theorem signatures_isolated_preview :
    ∃ r r' first, plain.run machine ⟨[release]⟩ ⟨"alone"⟩ = .ok r ∧
      plain.run machine ⟨[preview, release]⟩ ⟨"second"⟩ = .ok r' ∧
      (plain.stateAfter machine []).pool = (plain.stateAfter machine [preview]).pool ∧
      r.verdicts.length = 1 ∧ r'.verdicts.map (·.isRetracted) = [true, false] ∧
      plain.verdictsOf machine [] release = plain.verdictsOf machine [preview] release ∧
      plain.run machine ⟨[preview]⟩ ⟨"first"⟩ = .ok first ∧ first.verdicts <+: r'.verdicts := by
  have halone : (plain.run machine ⟨[] ++ release :: []⟩ ⟨"alone"⟩).map (·.verdicts.length) =
      .ok 1 := by decide +kernel
  have hsecond : (plain.run machine ⟨[preview] ++ release :: []⟩ ⟨"second"⟩).map
      (·.verdicts.map (·.isRetracted)) = .ok [true, false] := by decide +kernel
  have hpool : (plain.stateAfter machine []).pool = (plain.stateAfter machine [preview]).pool := by
    decide +kernel
  cases hrun : plain.run machine ⟨[] ++ release :: []⟩ ⟨"alone"⟩ with
  | error err =>
    rw [hrun] at halone
    cases halone
  | ok r =>
    cases hrun' : plain.run machine ⟨[preview] ++ release :: []⟩ ⟨"second"⟩ with
    | error err =>
      rw [hrun'] at hsecond
      cases hsecond
    | ok r' =>
      rw [hrun] at halone
      rw [hrun'] at hsecond
      obtain ⟨hsame, -⟩ := (signatures_isolated plain machine).1 hrun hrun' hpool
      obtain ⟨first, hfirst, hverdicts, -⟩ := (signatures_isolated plain machine).2 hrun'
      exact ⟨r, r', first, hrun, hrun', hpool, Except.ok.inj halone, Except.ok.inj hsecond, hsame,
        hfirst, hverdicts⟩

end SoftwareCensus.Discovery.Engine
