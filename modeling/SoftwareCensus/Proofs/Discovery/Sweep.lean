import SoftwareCensus.Discovery.Run
import SoftwareCensus.Proofs.Detection.Attribution
import SoftwareCensus.Proofs.Detection.Partition

/-!
# Sweeps

What a run does to its pool and its verdicts, without its tasks. A signature takes its instances out
of the pool, every instance gets one verdict, and what is retracted goes back.

## Main results

* `Engine.runSignatures_sweep` : a run that comes to its end is a sweep over its catalog
-/

namespace SoftwareCensus

namespace Discovery

/-! ## Verdicts -/

namespace Verdict

/-- What goes back into the pool with a verdict. -/
def released (v : Verdict) : List Pid := if v.isRetracted then v.seed.claimed else []

/-- What stays out of the pool with a verdict. -/
def held (v : Verdict) : List Pid := if v.isRetracted then [] else v.seed.claimed

end Verdict

/-- A sweep over signatures: from a pool, through verdicts on all that is detected, to the pool that
remains. -/
inductive Sweep (f : Forest) : List Signature → Pool → List Verdict → Pool → Prop where
  | done (pool : Pool) : Sweep f [] pool [] pool
  /-- Every seed of a signature gets one verdict, and what is retracted is detected again by the
  signatures that follow. -/
  | step {s : Signature} {rest : List Signature} {d : Detector} {pool left : Pool}
      {verdicts more : List Verdict} (compiled : Detector.ofSignature s = .ok d)
      (judged : verdicts.map (·.seed) = (d.detect f pool).1)
      (after : Sweep f rest ((d.detect f pool).2.restore (verdicts.flatMap (·.released))) more
        left) :
      Sweep f (s :: rest) pool (verdicts ++ more) left

/-- A sweep keeps the pool in order. -/
theorem Sweep.ascending {f : Forest} {signatures : List Signature} {pool left : Pool}
    {verdicts : List Verdict} (h : Sweep f signatures pool verdicts left)
    (hpool : Pid.Ascending pool.pids) : Pid.Ascending left.pids := by
  induction h with
  | done pool => exact hpool
  | step _ _ _ ih => exact ih (Pool.ascending_restore (Pool.ascending_claim hpool _) _)

/-! ## Steps -/

namespace Engine

/-- A step that follows another one begins where that one ended; an error ends both. -/
theorem bind_apply {α β : Type} (first : Step α) (next : α → Step β) (st : State) :
    (first >>= next) st = match first st with
      | (.ok a, mid) => next a mid
      | (.error err, mid) => (.error err, mid) := by
  show (ExceptT.bindCont next (first st).1) (first st).2 = _
  cases first st with
  | mk outcome mid => cases outcome <;> rfl

theorem bind_eq_ok {α β : Type} {first : Step α} {next : α → Step β} {st after : State} {b : β}
    (h : (first >>= next) st = (.ok b, after)) :
    ∃ a mid, first st = (.ok a, mid) ∧ next a mid = (.ok b, after) := by
  rw [bind_apply] at h
  cases hfirst : first st with
  | mk outcome mid =>
    rw [hfirst] at h
    cases outcome with
    | error err => cases h
    | ok a => exact ⟨a, mid, rfl, h⟩

variable {e : Engine} {scene : Scene} {s : Signature} {st after : State}

/-- Judging an instance gives it one verdict, and puts it back if that retracts it. -/
theorem judge_spec {i : Instance} (h : e.judge s i st = (.ok (), after)) :
    ∃ v : Verdict, v.seed = i.seed ∧ after.verdicts = v :: st.verdicts ∧
      after.pool = st.pool.restore v.released := by
  unfold judge at h
  generalize e.instanceFacts s i { context := st.context } = result at h
  obtain ⟨outcome, session⟩ := result
  cases hfate : e.fateOf s (placeOf s i.seed) outcome with
  | error err =>
    simp only [hfate] at h
    cases h
  | ok fate =>
    simp only [hfate] at h
    obtain ⟨-, hafter⟩ := Prod.mk.inj h
    subst hafter
    refine ⟨⟨i.seed, fate⟩, rfl, rfl, ?_⟩
    cases fate <;> rfl

/-- Judging instances gives each of them one verdict, in their order. -/
theorem judgeAll_spec {instances : List Instance}
    (h : e.judgeAll s instances st = (.ok (), after)) :
    ∃ verdicts : List Verdict, verdicts.map (·.seed) = instances.map (·.seed) ∧
      after.verdicts = verdicts.reverse ++ st.verdicts ∧
      after.pool = st.pool.restore (verdicts.flatMap (·.released)) := by
  induction instances generalizing st with
  | nil =>
    obtain rfl : st = after := (Prod.mk.inj h).2
    exact ⟨[], rfl, rfl, rfl⟩
  | cons i rest ih =>
    obtain ⟨⟨⟩, mid, hjudge, hrest⟩ := bind_eq_ok h
    obtain ⟨v, hseed, hverdict, hpool⟩ := judge_spec hjudge
    obtain ⟨verdicts, hseeds, hverdicts, hpools⟩ := ih hrest
    refine ⟨v :: verdicts, ?_, ?_, ?_⟩
    · simp only [List.map_cons, hseed, hseeds]
    · rw [hverdicts, hverdict]
      simp
    · rw [hpools, hpool, List.flatMap_cons, Pool.restore_append]

theorem detectSeeds_spec {seeds : List Seed} (h : detectSeeds scene s st = (.ok seeds, after)) :
    ∃ d, Detector.ofSignature s = .ok d ∧ (d.detect scene.forest st.pool).1 = seeds ∧
      after.verdicts = st.verdicts ∧ after.pool = (d.detect scene.forest st.pool).2 := by
  unfold detectSeeds at h
  cases hd : Detector.ofSignature s with
  | error err =>
    rw [hd] at h
    cases h
  | ok d =>
    rw [hd] at h
    obtain ⟨hseeds, hafter⟩ := Prod.mk.inj h
    subst hafter
    exact ⟨d, rfl, Except.ok.inj hseeds, rfl, rfl⟩

/-- A signature detects its instances in the pool and judges each of them. -/
theorem runSignature_spec (h : e.runSignature scene s st = (.ok (), after)) :
    ∃ (d : Detector) (verdicts : List Verdict), Detector.ofSignature s = .ok d ∧
      verdicts.map (·.seed) = (d.detect scene.forest st.pool).1 ∧
      after.verdicts = verdicts.reverse ++ st.verdicts ∧
      after.pool =
        (d.detect scene.forest st.pool).2.restore (verdicts.flatMap (·.released)) := by
  unfold runSignature at h
  obtain ⟨seeds, mid, hdetect, hrest⟩ := bind_eq_ok h
  obtain ⟨d, hd, hseeds, hverdicts, hpool⟩ := detectSeeds_spec hdetect
  refine ⟨d, ?_⟩
  split at hrest
  case isTrue hempty =>
    -- Nothing is detected, so there is nothing to judge.
    obtain rfl : mid = after := (Prod.mk.inj hrest).2
    refine ⟨[], hd, ?_, hverdicts, hpool⟩
    rw [hseeds, List.isEmpty_iff.mp hempty]
    rfl
  case isFalse =>
    cases henrich : enrich scene.forest scene.inventory s seeds with
    | error err =>
      rw [henrich] at hrest
      cases hrest
    | ok instances =>
      rw [henrich] at hrest
      -- The bindings of the signature surround its judgements and touch neither pool nor verdicts.
      obtain ⟨_, bound, hbound, hrest⟩ := bind_eq_ok hrest
      obtain ⟨_, opened, hopened, hrest⟩ := bind_eq_ok hrest
      obtain ⟨_, judged, hjudged, hclosed⟩ := bind_eq_ok hrest
      obtain rfl : mid = bound := (Prod.mk.inj hbound).2
      obtain ⟨verdicts, hinstances, hlist, hback⟩ := judgeAll_spec hjudged
      obtain ⟨-, hopened⟩ := Prod.mk.inj hopened
      obtain ⟨-, hclosed⟩ := Prod.mk.inj hclosed
      subst hopened hclosed
      refine ⟨verdicts, hd, ?_, ?_, ?_⟩
      · rw [hinstances, seeds_enrich henrich, hseeds]
      · rw [← hverdicts]
        exact hlist
      · rw [← hpool]
        exact hback

/-- **A run that comes to its end is a sweep**, and its verdicts are the latest first. -/
theorem runSignatures_sweep {signatures : List Signature}
    (h : e.runSignatures scene signatures st = (.ok (), after)) :
    ∃ verdicts, Sweep scene.forest signatures st.pool verdicts after.pool ∧
      after.verdicts = verdicts.reverse ++ st.verdicts := by
  induction signatures generalizing st with
  | nil =>
    obtain rfl : st = after := (Prod.mk.inj h).2
    exact ⟨[], .done st.pool, rfl⟩
  | cons s rest ih =>
    obtain ⟨_, mid, hfirst, hrest⟩ := bind_eq_ok h
    obtain ⟨d, verdicts, hd, hseeds, hverdicts, hpool⟩ := runSignature_spec hfirst
    obtain ⟨more, hsweep, hmore⟩ := ih hrest
    rw [hpool] at hsweep
    refine ⟨verdicts ++ more, .step hd hseeds hsweep, ?_⟩
    rw [hmore, hverdicts, List.reverse_append, List.append_assoc]

/-! ## Runs -/

/-- The ports that processes listen on do not change where processes are in the forest. -/
theorem sceneOf_linked (inventory : Inventory) :
    (sceneOf inventory).forest.Linked ∧
      (sceneOf inventory).forest.pids = (Forest.build inventory.processes).pids := by
  have hbuild := Forest.build_linked inventory.processes
  refine ⟨Forest.attachPorts_linked _ (Forest.attachPorts_linked _ hbuild), ?_⟩
  simp [sceneOf]

section Runs

variable {inventory : Inventory} {c : Catalog} {id : RunId} {report : Report}

theorem checkSignatures_eq_ok_iff {signatures : List Signature} :
    e.checkSignatures signatures = .ok () ↔
      ∀ s ∈ signatures, Tasks.check e.registry s.customTasks = .ok () := by
  induction signatures with
  | nil => simp [checkSignatures]
  | cons s rest ih =>
    rw [List.forall_mem_cons, ← ih, checkSignatures, checkPlace]
    cases Tasks.check e.registry s.customTasks <;>
      simp [Except.mapError, bind, Except.bind]

/-- A check accepts a run when it accepts all the task lists in it. -/
theorem check_eq_ok_iff :
    e.check c = .ok () ↔ Tasks.check e.registry e.options.preTasks = .ok () ∧
      Tasks.check e.registry e.options.postTasks = .ok () ∧
      ∀ s ∈ c.signatures, Tasks.check e.registry s.customTasks = .ok () := by
  rw [← checkSignatures_eq_ok_iff, check, checkPlace, checkPlace]
  cases Tasks.check e.registry e.options.preTasks <;>
    cases Tasks.check e.registry e.options.postTasks <;>
      simp [Except.mapError, bind, Except.bind]

/-- A run comes to its end when its task lists are accepted and its signatures come to theirs. -/
theorem run_eq_ok_iff :
    e.run inventory c id = .ok report ↔ e.check c = .ok () ∧
      ∃ st, e.runSignatures (sceneOf inventory) c.signatures (e.start (sceneOf inventory)) =
        (.ok (), st) ∧ report = reportOf id st := by
  unfold run runTraced
  cases hcheck : e.check c with
  | error err => simp
  | ok _ =>
    dsimp only
    generalize e.runSignatures (sceneOf inventory) c.signatures (e.start (sceneOf inventory)) = result
    obtain ⟨outcome, st⟩ := result
    constructor
    · intro h
      cases outcome with
      | error err => cases h
      | ok _ => exact ⟨rfl, st, rfl, (Except.ok.inj h).symm⟩
    · rintro ⟨-, st, hrun, rfl⟩
      cases hrun
      rfl

end Runs

end Engine

end Discovery

end SoftwareCensus
