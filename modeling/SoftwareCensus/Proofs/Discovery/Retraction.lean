import SoftwareCensus.Proofs.Discovery.Isolation

/-!
# Neutral Signatures

A signature whose instances are all retracted leaves no trace in a run. What it claimed goes back into
the pool, which is in order and has no process twice, so it is the pool of before; and the context is
the one that the signature found. So the signatures after it do the same as without it.

## Main results

* `Detector.restore_detect` : what a pass claimed, put back, makes the pool of before
* `Engine.retraction_neutral` : without such a signature a catalog comes to the same report
-/

namespace SoftwareCensus

/-- **What a pass claimed, put back, makes the pool of before.** -/
theorem Detector.restore_detect {f : Forest} {pool : Pool} (hf : f.Linked) (d : Detector)
    (hpool : Pid.Ascending pool.pids) :
    (d.detect f pool).2.restore ((d.detect f pool).1.flatMap (·.claimed)) = pool := by
  have hsplit := detect_perm hf d hpool.nodup
  have hback := Pool.restore_perm (hsplit.nodup_iff.mpr hpool.nodup)
  have hleft : Pid.Ascending (d.detect f pool).2.pids := by
    rw [detect_left hf d pool]
    exact hpool.filter _
  -- Both are the same processes in ascending order.
  have hsame := (Pool.ascending_restore hleft _).eq_of_perm hpool (hback.trans hsplit)
  exact congrArg Pool.mk hsame

namespace Discovery

/-- Verdicts that retract everything release all that was claimed. -/
theorem flatMap_released {verdicts : List Verdict} (h : ∀ v ∈ verdicts, v.isRetracted = true) :
    verdicts.flatMap (·.released) = (verdicts.map (·.seed)).flatMap (·.claimed) := by
  induction verdicts with
  | nil => rfl
  | cons v rest ih =>
    obtain ⟨hv, hrest⟩ := List.forall_mem_cons.mp h
    have hown : v.released = v.seed.claimed := by simp [Verdict.released, hv]
    rw [List.flatMap_cons, List.map_cons, List.flatMap_cons, hown, ih hrest]

/-- A retraction is neither a document nor a failure. -/
theorem Verdict.unreported_of_retracted {v : Verdict} (h : v.isRetracted = true) :
    v.document? = none ∧ v.failureEntries? = none := by
  obtain ⟨seed, fate⟩ := v
  cases fate with
  | retracted => exact ⟨rfl, rfl⟩
  | kept d => cases h
  | failed place e => cases h

namespace Engine

variable {e : Engine} {inventory : Inventory} {before rest : List Signature} {s : Signature}
  {id : RunId} {r : Report}

/-- The pool of a run is in order between two signatures. -/
theorem ascending_stateAfter (h : e.run inventory ⟨before ++ rest⟩ id = .ok r) :
    Pid.Ascending (e.stateAfter inventory before).pool.pids := by
  obtain ⟨verdicts, hsweep, -⟩ := runSignatures_sweep (run_append_eq_ok h).1
  exact hsweep.ascending (sceneOf_linked inventory).1.ascending

/-- A signature whose instances are all retracted leaves the state that it found, but for its own
verdicts. -/
theorem alike_of_retracted (h : e.run inventory ⟨before ++ s :: rest⟩ id = .ok r)
    (hretracted : ∀ v ∈ e.verdictsOf inventory before s, v.isRetracted = true) :
    (e.stateAfter inventory (before ++ [s])).Alike (e.stateAfter inventory before) := by
  have hlinked := (sceneOf_linked inventory).1
  obtain ⟨d, own, -, hseeds, hown, hpool⟩ := runSignature_spec (run_signature_eq_ok h).1
  rw [verdictsOf_eq hown] at hretracted
  constructor
  · rw [List.append_cons] at h
    rw [context_stateAfter h]
    rw [List.append_assoc] at h
    exact (context_stateAfter h).symm
  · rw [hpool, flatMap_released hretracted, hseeds]
    exact d.restore_detect hlinked (ascending_stateAfter h)

/-- **A signature whose instances are all retracted is neutral.** Without it the catalog comes to a
report as well, with the same documents, the same failures and the same unclaimed processes. -/
theorem retraction_neutral (h : e.run inventory ⟨before ++ s :: rest⟩ id = .ok r)
    (hretracted : ∀ v ∈ e.verdictsOf inventory before s, v.isRetracted = true) (id' : RunId) :
    ∃ r', e.run inventory ⟨before ++ rest⟩ id' = .ok r' ∧ r'.software = r.software ∧
      r'.failures = r.failures ∧ r'.unclaimed = r.unclaimed := by
  obtain ⟨hs, hrest⟩ := run_signature_eq_ok h
  obtain ⟨-, own, -, -, hown, -⟩ := runSignature_spec hs
  have hnothing := hretracted
  rw [verdictsOf_eq hown] at hnothing
  -- The other signatures do the same from the state before `s` as from the one after it.
  have hcourse := forgetful_runSignatures e (sceneOf inventory) rest _ _
    (alike_of_retracted h hretracted)
  rw [hrest] at hcourse
  generalize hlast : e.runSignatures (sceneOf inventory) rest (e.stateAfter inventory before) = result
    at hcourse
  obtain ⟨outcome, last⟩ := result
  obtain ⟨houtcome, halike, added, hadded, hadded'⟩ := hcourse
  obtain rfl : .ok () = outcome := houtcome
  dsimp only at hadded hadded'
  have hrun : e.runSignatures (sceneOf inventory) (before ++ rest) (e.start (sceneOf inventory)) =
      (.ok (), last) := by
    rw [runSignatures_append, bind_apply, (run_append_eq_ok h).1]
    exact hlast
  have hcheck : e.check ⟨before ++ rest⟩ = .ok () :=
    check_sublist (run_eq_ok_iff.mp h).1 (by simp)
  refine ⟨reportOf id' last, run_eq_ok_iff.mpr ⟨hcheck, last, hrun, rfl⟩, ?_⟩
  obtain rfl := (run_append_eq_ok h).2.2
  refine ⟨?_, ?_, congrArg Pool.pids halike.pool_eq.symm⟩
  · have hown_none : own.filterMap Verdict.document? = [] :=
      List.filterMap_eq_nil_iff.mpr fun v hv => (Verdict.unreported_of_retracted (hnothing v hv)).1
    simp [Report.software, reportOf, hadded, hadded', hown, hown_none]
  · have hown_none : own.filterMap Verdict.failureEntries? = [] :=
      List.filterMap_eq_nil_iff.mpr fun v hv => (Verdict.unreported_of_retracted (hnothing v hv)).2
    simp [Report.failures, reportOf, hadded, hadded', hown, hown_none]

/-- A signature that takes the process of another one, and whose tasks retract it. -/
private def probe : Signature :=
  { name := "probe", cmdRegexp := ".", vars := [("port", .int 80)],
    customTasks := [.ofFields
      [("set_instance_fact", .ofFields [(retractionSentinel, .bool true)]),
        ("register", .str "seen")]] }

private def daemon : Signature := { name := "daemon", cmdRegexp := "." }

private def station : Inventory :=
  { processes := [{ pid := ⟨"1"⟩, cmdline := "init" }, { pid := ⟨"4"⟩, ppid := ⟨"1"⟩ }] }

private def watch : Engine := ⟨.builtin, default, {}, "now", 1⟩

/-- With the signature that retracts and without it, the other one reports the same. -/
theorem retraction_neutral_probe :
    ∃ r r', watch.run station ⟨[probe, daemon]⟩ ⟨"both"⟩ = .ok r ∧
      r.verdicts.map (·.isRetracted) = [true, false] ∧
      watch.run station ⟨[daemon]⟩ ⟨"one"⟩ = .ok r' ∧
      r'.software = r.software ∧ r'.failures = r.failures ∧ r'.unclaimed = r.unclaimed := by
  have hboth : (watch.run station ⟨[] ++ probe :: [daemon]⟩ ⟨"both"⟩).map
      (·.verdicts.map (·.isRetracted)) = .ok [true, false] := by decide +kernel
  have hretracted : ∀ v ∈ watch.verdictsOf station [] probe, v.isRetracted = true := by
    decide +kernel
  cases hrun : watch.run station ⟨[] ++ probe :: [daemon]⟩ ⟨"both"⟩ with
  | error err =>
    rw [hrun] at hboth
    cases hboth
  | ok r =>
    rw [hrun] at hboth
    obtain ⟨r', hrun', hreport⟩ := retraction_neutral hrun hretracted ⟨"one"⟩
    exact ⟨r, r', hrun, Except.ok.inj hboth, hrun', hreport⟩

end Engine

end Discovery

end SoftwareCensus
