import SoftwareCensus.Proofs.Discovery.Sweep

/-!
# Accounting for Processes

Every process of a host is claimed by exactly one instance that is reported, or it is reported as
unclaimed. The invariant of a sweep is that what its verdicts hold, together with the pool, is the
pool that it began with: detection moves processes from the pool to the verdicts, and a retraction
moves them back.

## Main results

* `Sweep.perm` : what a sweep holds and what it leaves is what it began with
* `Engine.run_accounts` : a report accounts for all processes and for all instances
-/

namespace SoftwareCensus.Discovery

variable {f : Forest} {signatures : List Signature} {pool left : Pool} {verdicts : List Verdict}

/-! ## What verdicts hold -/

namespace Verdict

theorem held_of_not_retracted {v : Verdict} (h : v.isRetracted = false) :
    v.held = v.seed.claimed := by
  simp [held, h]

/-- What is claimed for an instance is held, or it is released. -/
theorem held_append_released (v : Verdict) : v.held ++ v.released = v.seed.claimed := by
  cases h : v.isRetracted <;> simp [held, released, h]

end Verdict

/-- What is claimed for instances is held by some of them and released by the others. -/
theorem held_released_perm (verdicts : List Verdict) :
    (verdicts.flatMap (·.held) ++ verdicts.flatMap (·.released)).Perm
      (verdicts.flatMap (·.seed.claimed)) := by
  induction verdicts with
  | nil => exact .refl _
  | cons v rest ih =>
    simp only [List.flatMap_cons]
    rw [List.append_assoc]
    -- What `v` releases is moved next to what it holds.
    refine ((List.perm_append_comm_assoc ..).append_left v.held).trans ?_
    rw [← List.append_assoc, v.held_append_released]
    exact ih.append_left v.seed.claimed

/-! ## Sweeps -/

/-- **What a sweep holds and what it leaves is what it began with.** -/
theorem Sweep.perm (hf : f.Linked) (h : Sweep f signatures pool verdicts left)
    (hpool : Pid.Ascending pool.pids) :
    (verdicts.flatMap (·.held) ++ left.pids).Perm pool.pids := by
  induction h with
  | done pool => exact .refl _
  | @step s rest d pool left verdicts more _ hjudged _ ih =>
    have hclaims : (verdicts.flatMap (·.seed.claimed)) =
        (d.detect f pool).1.flatMap (·.claimed) := by
      rw [← hjudged, List.flatMap_map]
    -- Detection splits the pool, and a retraction moves its part back.
    have hsplit : (verdicts.flatMap (·.held) ++
        (verdicts.flatMap (·.released) ++ (d.detect f pool).2.pids)).Perm pool.pids := by
      rw [← List.append_assoc]
      refine ((held_released_perm verdicts).append_right _).trans ?_
      rw [hclaims]
      exact Detector.detect_perm hf d hpool.nodup
    have hback : ((d.detect f pool).2.restore (verdicts.flatMap (·.released))).pids.Perm
        (verdicts.flatMap (·.released) ++ (d.detect f pool).2.pids) :=
      Pool.restore_perm (List.Nodup.of_append_right (hsplit.nodup_iff.mpr hpool.nodup))
    have hrest := ih (Pool.ascending_restore (Pool.ascending_claim hpool _) _)
    rw [List.flatMap_append, List.append_assoc]
    exact ((hrest.trans hback).append_left _).trans hsplit

/-! ## Reports -/

/-- An instance is a document, a failure or a retraction, and only one of them. -/
theorem Verdict.settled_once (v : Verdict) :
    [v.document?.isSome, v.failureEntries?.isSome, v.isRetracted].count true = 1 := by
  obtain ⟨seed, fate⟩ := v
  cases fate <;> rfl

/-- The documents, the failures and the retractions of a report are as many as its verdicts. -/
theorem Report.length_verdicts (r : Report) :
    r.software.length + r.failures.length + r.verdicts.countP (·.isRetracted) =
      r.verdicts.length := by
  unfold software failures
  rw [List.length_map, List.length_filterMap_eq_countP, List.length_filterMap_eq_countP]
  generalize r.verdicts = verdicts
  induction verdicts with
  | nil => rfl
  | cons v rest ih =>
    -- The verdict adds one to one of the three counts.
    have honce := v.settled_once
    simp only [List.count_cons, List.count_nil, beq_true] at honce
    simp only [List.countP_cons, List.length_cons]
    omega

/-- What a report says about the processes of a host, and about the instances in them. -/
structure Accounted (pids : List Pid) (r : Report) : Prop where
  nodup_claimed : ∀ v ∈ r.verdicts, v.isRetracted = false → v.seed.claimed.Nodup
  /-- No process belongs to two instances that are kept or failed. -/
  exclusive : r.verdicts.Pairwise fun v w =>
    v.isRetracted = false → w.isRetracted = false → v.seed.claimed.Disjoint w.seed.claimed
  unclaimed_free : ∀ v ∈ r.verdicts, v.isRetracted = false →
    v.seed.claimed.Disjoint r.unclaimed
  covers : ∀ pid, pid ∈ pids ↔
    pid ∈ r.unclaimed ∨ ∃ v ∈ r.verdicts, v.isRetracted = false ∧ pid ∈ v.seed.claimed
  ascending : Pid.Ascending r.unclaimed
  /-- Every instance is one document, one failure or one retraction. -/
  settled : ∀ v ∈ r.verdicts,
    [v.document?.isSome, v.failureEntries?.isSome, v.isRetracted].count true = 1
  counted : r.software.length + r.failures.length + r.verdicts.countP (·.isRetracted) =
    r.verdicts.length

/-- A sweep from a whole forest accounts for it. -/
theorem accounted_of_sweep {id : RunId} (hf : f.Linked)
    (h : Sweep f signatures (.ofForest f) verdicts left) :
    Accounted f.pids ⟨id, verdicts, left.pids⟩ := by
  have hperm : (verdicts.flatMap (·.held) ++ left.pids).Perm f.pids := h.perm hf hf.ascending
  obtain ⟨hheld, -, hfree⟩ := List.nodup_append'.mp (hperm.nodup_iff.mpr hf.ascending.nodup)
  obtain ⟨hnodup, hpairwise⟩ := List.nodup_flatMap.mp hheld
  refine ⟨?_, ?_, ?_, ?_, h.ascending hf.ascending, fun v _ => v.settled_once,
    Report.length_verdicts _⟩
  · intro v hv hkept
    rw [← Verdict.held_of_not_retracted hkept]
    exact hnodup v hv
  · refine hpairwise.imp ?_
    intro v w hdisjoint hkept hkept'
    rw [← Verdict.held_of_not_retracted hkept, ← Verdict.held_of_not_retracted hkept']
    exact hdisjoint
  · intro v hv hkept pid hclaimed
    rw [← Verdict.held_of_not_retracted hkept] at hclaimed
    exact hfree (List.mem_flatMap.mpr ⟨v, hv, hclaimed⟩)
  · intro pid
    rw [← hperm.mem_iff, List.mem_append, List.mem_flatMap, or_comm]
    refine or_congr_right (exists_congr fun v => and_congr_right fun _ => ?_)
    cases hret : v.isRetracted <;> simp [Verdict.held, hret]

/-! ## Runs -/

namespace Engine

/-- **A report accounts for everything.** No process belongs to two of the instances that were kept
or failed, the unclaimed ones are all others, and every seed that a signature detected has one
verdict, which is a document, a failure or a retraction. -/
theorem run_accounts (e : Engine) (inventory : Inventory) (c : Catalog) (id : RunId)
    {report : Report} (h : e.run inventory c id = .ok report) :
    Accounted (Forest.build inventory.processes).pids report ∧
      Sweep (sceneOf inventory).forest c.signatures (.ofForest (sceneOf inventory).forest)
        report.verdicts ⟨report.unclaimed⟩ := by
  obtain ⟨-, st, hrun, rfl⟩ := run_eq_ok_iff.mp h
  obtain ⟨verdicts, hsweep, hverdicts⟩ := runSignatures_sweep hrun
  obtain ⟨hlinked, hpids⟩ := sceneOf_linked inventory
  have hreport : st.verdicts.reverse = verdicts := by
    rw [hverdicts]
    simp [start]
  simp only [reportOf, hreport]
  rw [← hpids]
  exact ⟨accounted_of_sweep hlinked hsweep, hsweep⟩

/-- Tasks that retract every instance. -/
private def withdraw : Document :=
  .ofFields [("set_instance_fact", .ofFields [(retractionSentinel, .bool true)])]

/-- A signature whose instances are retracted, and one that detects them again. -/
private def twice : Catalog :=
  ⟨[{ name := "draft", cmdRegexp := ".", customTasks := [withdraw] },
    { name := "server", cmdRegexp := "." }]⟩

private def host : Inventory :=
  { processes := [{ pid := ⟨"1"⟩, cmdline := "init" }, { pid := ⟨"2"⟩, ppid := ⟨"1"⟩ },
      { pid := ⟨"7"⟩, ppid := ⟨"9"⟩ }] }

private def surveyor : Engine := ⟨.builtin, default, {}, "now", 1⟩

/-- The process that the first signature lets go is detected again, and every verdict is accounted for. -/
theorem run_accounts_twice :
    ∃ report, surveyor.run host twice ⟨"run"⟩ = .ok report ∧
      report.verdicts.map (·.isRetracted) = [true, false] ∧
      Accounted (Forest.build host.processes).pids report := by
  have hends : (surveyor.run host twice ⟨"run"⟩).map
      (·.verdicts.map (·.isRetracted)) = .ok [true, false] := by decide +kernel
  cases hrun : surveyor.run host twice ⟨"run"⟩ with
  | error err =>
    rw [hrun] at hends
    cases hends
  | ok report =>
    rw [hrun] at hends
    exact ⟨report, rfl, Except.ok.inj hends, (run_accounts _ _ _ _ hrun).1⟩

end Engine

end SoftwareCensus.Discovery
