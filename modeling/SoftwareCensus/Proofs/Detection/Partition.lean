import SoftwareCensus.Proofs.Detection.Pass

/-!
# Pools as Partitions

A pass splits its pool: every process is claimed by exactly one of the seeds, or it is left. What is
put back is added to what is there, each process once.

## Main results

* `Pool.restore_perm` : what is put back into a pool is in it once
* `Detector.detect_perm` : what the seeds of a pass claim, and what it leaves, is the pool
-/

namespace SoftwareCensus

/-! ## Pools -/

namespace Pool

variable {pool : Pool} {pids : List Pid}

/-- What is put back in two parts is put back. -/
theorem restore_append (pool : Pool) (first second : List Pid) :
    pool.restore (first ++ second) = (pool.restore first).restore second := by
  simp only [restore, List.foldl_append]

/-- Claiming keeps the order of a pool. -/
theorem ascending_claim (h : Pid.Ascending pool.pids) (pids : List Pid) :
    Pid.Ascending (pool.claim pids).pids :=
  h.filter _

/-- Putting back keeps the order of a pool. -/
theorem ascending_restore (h : Pid.Ascending pool.pids) (pids : List Pid) :
    Pid.Ascending (pool.restore pids).pids := by
  induction pids generalizing pool with
  | nil => exact h
  | cons pid rest ih => exact @ih ⟨Pid.insert pid pool.pids⟩ (h.insert pid)

/-- Processes that are put back are in the pool once, with those that were there. -/
theorem restore_perm (hnodup : (pids ++ pool.pids).Nodup) :
    (pool.restore pids).pids.Perm (pids ++ pool.pids) := by
  induction pids generalizing pool with
  | nil => exact .refl _
  | cons pid rest ih =>
    rw [List.cons_append, List.nodup_cons] at hnodup
    obtain ⟨hnew, hrest⟩ := hnodup
    -- The first process is new, so the insertion adds it once.
    have hadded : (Pid.insert pid pool.pids).Perm (pid :: pool.pids) :=
      Pid.insert_perm fun hpid => hnew (List.mem_append_right _ hpid)
    have hmove : (rest ++ Pid.insert pid pool.pids).Perm (pid :: (rest ++ pool.pids)) :=
      (hadded.append_left rest).trans List.perm_middle
    -- The others are still different from all that is in the pool.
    have hstill : (rest ++ Pid.insert pid pool.pids).Nodup :=
      hmove.nodup_iff.mpr (List.nodup_cons.mpr ⟨hnew, hrest⟩)
    exact (@ih ⟨Pid.insert pid pool.pids⟩ hstill).trans hmove

end Pool

/-! ## Passes -/

namespace Detector

variable {d : Detector} {f : Forest} {pool : Pool}

/-- A seed claims no process twice, as it claims a subtree. -/
theorem Placed.nodup_claimed {earlier : List Seed} {seed : Seed}
    (h : Placed d f pool earlier seed) : seed.claimed.Nodup := by
  rw [h.claimed_eq]
  exact Forest.nodup_subtreePids ..

/-- A seed claims nothing that a seed before it has. -/
theorem Placed.disjoint {earlier : List Seed} {seed other : Seed}
    (h : Placed d f pool earlier seed) (hother : other ∈ earlier) :
    other.claimed.Disjoint seed.claimed := by
  intro pid hbefore hclaimed
  -- What a seed claims was free of the seeds before it.
  have hfree := h.isFree_of_mem hclaimed
  rw [isFree, Bool.and_eq_true, Bool.not_eq_true', List.any_eq_false] at hfree
  exact hfree.2 other hother (by simpa [Seed.owns] using hbefore)

/-- Seeds that are placed one after another claim no process twice. -/
private theorem nodup_claims {seeds : List Seed}
    (hplaced : ∀ earlier seed later, seeds = earlier ++ seed :: later →
      Placed d f pool earlier seed) : (seeds.flatMap (·.claimed)).Nodup := by
  -- By induction from the back, since a seed is placed with regard to those before it.
  induction seeds using List.reverseRecOn with
  | nil => exact List.nodup_nil
  | append_singleton earlier seed ih =>
    have hseed : Placed d f pool earlier seed := hplaced earlier seed [] rfl
    have hearlier : (earlier.flatMap (·.claimed)).Nodup := by
      refine ih fun before other after heq => hplaced before other (after ++ [seed]) ?_
      rw [heq, List.append_assoc, List.cons_append]
    rw [List.flatMap_append, List.flatMap_singleton]
    refine hearlier.append hseed.nodup_claimed ?_
    intro pid hbefore hclaimed
    obtain ⟨other, hother, hpid⟩ := List.mem_flatMap.mp hbefore
    exact hseed.disjoint hother hpid hclaimed

/-- **A pass splits its pool** into what its seeds claim and what it leaves. -/
theorem detect_perm (hf : f.Linked) (d : Detector) (hpool : pool.pids.Nodup) :
    ((d.detect f pool).1.flatMap (·.claimed) ++ (d.detect f pool).2.pids).Perm pool.pids := by
  have hclaims : ((d.detect f pool).1.flatMap (·.claimed)).Nodup :=
    nodup_claims fun _ _ _ h => detect_placed hf h
  have hleft := detect_left hf d pool
  generalize hfound : (d.detect f pool).1 = seeds at hclaims hleft ⊢
  -- What is claimed was in the pool.
  have hmem : ∀ pid ∈ seeds.flatMap (·.claimed), pid ∈ pool.pids := by
    intro pid hpid
    obtain ⟨seed, hseed, hclaimed⟩ := List.mem_flatMap.mp hpid
    obtain ⟨earlier, later, rfl⟩ := List.append_of_mem hseed
    exact Pool.contains_iff.mp ((detect_placed hf hfound).contains_of_mem hclaimed)
  have howned : ∀ pid, seeds.any (·.owns pid) = true ↔ pid ∈ seeds.flatMap (·.claimed) := by
    simp [Seed.owns]
  rw [hleft]
  refine (List.perm_ext_iff_of_nodup ?_ hpool).mpr ?_
  -- Nothing that is claimed is left.
  · refine hclaims.append (hpool.filter _) ?_
    intro pid hclaimed hpid
    simpa [(howned pid).mpr hclaimed] using (List.mem_filter.mp hpid).2
  -- Every process of the pool is owned by a seed or by none.
  · intro pid
    rw [List.mem_append, List.mem_filter, Bool.not_eq_true', ← howned]
    constructor
    · rintro (hclaimed | ⟨hpid, -⟩)
      · exact hmem pid ((howned pid).mp hclaimed)
      · exact hpid
    · intro hpid
      cases howns : seeds.any (·.owns pid) with
      | true => exact Or.inl rfl
      | false => exact Or.inr ⟨hpid, rfl⟩

end Detector

end SoftwareCensus
