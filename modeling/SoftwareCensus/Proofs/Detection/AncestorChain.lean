import Mathlib.Data.List.Chain
import Mathlib.Logic.Relation
import SoftwareCensus.Detection.Matching
import SoftwareCensus.Proofs.Host.ForestWalk

/-!
# Chains of Ancestors

Before a process is tested, its ancestors in the pool are. Their chain ends at the root, outside the
pool, at a process that was tested or claimed before, or where the parents run in a circle. In every
case the chain is closed: the parent of a member is a member itself, or was tested, or was claimed.

## Main results

* `chainFrom_spec` : the chain of a process is closed, also if parents run in a circle
* `clear_of_closed` : what is closed and matches nowhere has no match above it either
-/

namespace SoftwareCensus

theorem Pool.contains_iff {pool : Pool} {pid : Pid} :
    pool.contains pid = true ↔ pid ∈ pool.pids := by
  simp [Pool.contains]

/-- Whether a process has the other one as its parent, which is in the pool and not the root. -/
def Forest.ParentIn (f : Forest) (pool : Pool) (child parent : Pid) : Prop :=
  ∃ node, f.get? child = some node ∧ node.ppid = parent ∧ pool.contains parent = true ∧
    parent.isRoot = false

namespace Forest

variable {f : Forest} {pool : Pool} {child parent : Pid}

/-- A parent that is not the root was listed. -/
theorem Linked.parent?_of_parentIn (hf : f.Linked) (h : f.ParentIn pool child parent) :
    f.parent? child = some parent := by
  obtain ⟨node, hnode, hppid, -, hroot⟩ := h
  refine parent?_eq_some_iff.mpr ⟨node, hnode, ?_, hppid⟩
  -- A node that was never listed would have the root as its parent.
  cases hsyn : node.synthetic with
  | false => rfl
  | true =>
    rw [← hppid, hf.orphans hnode hsyn, Pid.isRoot_root] at hroot
    cases hroot

/-- A parent in the pool that is not the root has a node. -/
theorem Linked.contains_of_parentIn (hf : f.Linked) (h : f.ParentIn pool child parent) :
    f.contains parent = true :=
  hf.contains_parent (hf.parent?_of_parentIn h)

/-- A parent that is not the root lists its child. -/
theorem Linked.hasChild_of_parentIn (hf : f.Linked) (h : f.ParentIn pool child parent)
    (hne : child ≠ parent) : f.HasChild parent child :=
  hf.hasChild_iff.mpr ⟨hf.parent?_of_parentIn h, hne⟩

end Forest

namespace Detector

variable {d : Detector} {f : Forest} {pool : Pool}

/-! ## Matches -/

/-- Whether the command line of a process matches. -/
def Matches (d : Detector) (f : Forest) (pid : Pid) : Prop :=
  ∃ node, f.get? pid = some node ∧ d.isSoftware node.cmdline = true

/-- Whether nothing matches at a process and at its ancestors in the pool. -/
def Clear (d : Detector) (f : Forest) (pool : Pool) (pid : Pid) : Prop :=
  ∀ ancestor, Relation.ReflTransGen (f.ParentIn pool) pid ancestor → ¬ d.Matches f ancestor

/-- Where nothing matches above, nothing matches at the process itself. -/
theorem Clear.not_matches {pid : Pid} (h : Clear d f pool pid) : ¬ d.Matches f pid :=
  h pid .refl

/-- What is clear above a process is clear above its parent. -/
theorem Clear.parent {child parent : Pid} (h : Clear d f pool child)
    (hparent : f.ParentIn pool child parent) : Clear d f pool parent :=
  fun ancestor hpath => h ancestor (.head hparent hpath)

/-- If processes match nowhere and their parents are among them, nothing matches above them. -/
theorem clear_of_closed {P : Pid → Prop}
    (hclosed : ∀ child parent, P child → f.ParentIn pool child parent → P parent)
    (hno : ∀ pid, P pid → ¬ d.Matches f pid) {pid : Pid} (hpid : P pid) : Clear d f pool pid := by
  intro ancestor hpath
  refine hno ancestor ?_
  -- By induction on the way up, which does not leave the processes in question.
  induction hpath with
  | refl => exact hpid
  | tail _ hstep ih => exact hclosed _ _ ih hstep

/-! ## Availability -/

theorem isAvailable_iff {pass : Pass} {pid : Pid} :
    isAvailable pool pass pid = true ↔ pool.contains pid = true ∧ pid ∉ pass.used := by
  simp [isAvailable]

/-- Whether everything in the pool under a claimed process is claimed too. -/
def DownClosed (f : Forest) (pool : Pool) (used : List Pid) : Prop :=
  ∀ child parent, pool.contains child = true → f.ParentIn pool child parent → parent ∈ used →
    child ∈ used

/-! ## The chain of a process -/

/-- What is known about the chain of a process, the topmost ancestor first, and about the pass
after it. -/
structure ChainSpec (f : Forest) (pool : Pool) (pass : Pass) (start : Pid) (chain : List Pid)
    (after : Pass) : Prop where
  start_mem : start ∈ chain
  available : ∀ pid ∈ chain, isAvailable pool pass pid = true
  contains : ∀ pid ∈ chain, f.contains pid = true
  /-- Every member is the parent of the next one. -/
  linked : chain.IsChain fun parent child => f.ParentIn pool child parent
  closed : ∀ pid ∈ chain, ∀ parent, f.ParentIn pool pid parent →
    parent ∈ chain ∨ parent ∈ pass.tested ∨ parent ∈ pass.used
  used_eq : after.used = pass.used
  tested : ∀ pid ∈ after.tested, pid ∈ pass.tested ∨ pid ∈ chain

/-- Nothing is claimed while a chain is made. -/
theorem ChainSpec.isAvailable_eq {pass after : Pass} {start : Pid} {chain : List Pid}
    (c : ChainSpec f pool pass start chain after) :
    isAvailable pool after = isAvailable pool pass := by
  funext pid
  rw [isAvailable, isAvailable, c.used_eq]

/-- Testing a chain begins with all its members available. -/
theorem ChainSpec.available_after {pass after : Pass} {start pid : Pid} {chain : List Pid}
    (c : ChainSpec f pool pass start chain after) (hpid : pid ∈ chain) :
    isAvailable pool after pid = true := by
  rw [c.isAvailable_eq]
  exact c.available pid hpid

/-- Why a chain ends at a process. -/
private theorem closed_of_cut {pass : Pass} {visited : List Pid} {current : Pid}
    {node : ProcessNode} (hnode : f.get? current = some node)
    (hcut : (node.ppid.isRoot || visited.contains node.ppid || pass.tested.contains node.ppid ||
      !isAvailable pool pass node.ppid) = true) {parent : Pid}
    (hparent : f.ParentIn pool current parent) :
    parent ∈ visited ∨ parent ∈ pass.tested ∨ parent ∈ pass.used := by
  -- The parent is in the pool and not the root, so one of the other three reasons is left.
  obtain ⟨same, hsame, rfl, hpool, hroot⟩ := hparent
  obtain rfl : same = node := Option.some.inj (hsame.symm.trans hnode)
  simp only [hroot, isAvailable, hpool, Bool.false_or, Bool.true_and, Bool.not_not,
    Bool.or_eq_true, List.contains_iff_mem, or_assoc] at hcut
  exact hcut

/-- What is in a chain stays in it. -/
private theorem mem_chainFrom {bound : Nat} {pass : Pass} {chain visited : List Pid}
    {current pid : Pid} (h : pid ∈ chain) :
    pid ∈ (chainFrom f pool bound pass chain visited current).1 := by
  induction bound generalizing pass chain visited current with
  | zero => exact h
  | succ bound ih =>
    rw [chainFrom]
    -- The chain ends at a missing node or where it is cut, or it grows at its top.
    split
    · exact h
    · simp only
      split
      · exact h
      · exact ih (List.mem_cons_of_mem _ h)

/-- A chain while it grows upwards. Its members are distinct processes of the forest, and only the
parent of the topmost one may be missing. -/
private structure Growing (f : Forest) (pool : Pool) (pass : Pass) (start : Pid) (below : List Pid)
    (top : Pid) : Prop where
  start_mem : start ∈ top :: below
  nodup : (top :: below).Nodup
  available : ∀ pid ∈ top :: below, isAvailable pool pass pid = true
  contains : ∀ pid ∈ top :: below, f.contains pid = true
  linked : (top :: below).IsChain fun parent child => f.ParentIn pool child parent
  closed : ∀ pid ∈ below, ∀ parent, f.ParentIn pool pid parent → parent ∈ top :: below

section Growing

variable {pass : Pass} {start top : Pid} {below : List Pid}

private theorem growing_start (hstart : isAvailable pool pass start = true)
    (hcon : f.contains start = true) : Growing f pool pass start [] start where
  start_mem := List.mem_cons_self ..
  nodup := List.nodup_singleton start
  available := by simpa using hstart
  contains := by simpa using hcon
  linked := .singleton start
  closed := by simp

/-- A chain is not longer than the forest. -/
private theorem Growing.length_le (h : Growing f pool pass start below top) :
    below.length + 1 ≤ f.nodes.length := by
  -- The members are different processes of the forest.
  have hsubset : top :: below ⊆ f.pids := fun pid hpid =>
    Forest.mem_pids_iff.mpr (h.contains pid hpid)
  have hle := (List.subperm_of_subset h.nodup hsubset).length_le
  rwa [Forest.pids, List.length_map, List.length_cons] at hle

/-- The parent of the topmost member becomes the topmost one. -/
private theorem Growing.up (hf : f.Linked) (h : Growing f pool pass start below top) {parent : Pid}
    (hparent : f.ParentIn pool top parent) (hnew : parent ∉ top :: below)
    (hfree : isAvailable pool pass parent = true) :
    Growing f pool { pass with tested := parent :: pass.tested } start (top :: below) parent where
  start_mem := List.mem_cons_of_mem _ h.start_mem
  nodup := List.nodup_cons.mpr ⟨hnew, h.nodup⟩
  available := List.forall_mem_cons.mpr ⟨hfree, h.available⟩
  contains := List.forall_mem_cons.mpr ⟨hf.contains_of_parentIn hparent, h.contains⟩
  linked := List.isChain_cons_cons.mpr ⟨hparent, h.linked⟩
  closed := by
    intro pid hpid other hother
    -- The member that was on top has one parent, which is on top now; for the others it is as
    -- before.
    rcases List.mem_cons.mp hpid with rfl | hpid
    · obtain ⟨node, hnode, rfl, -⟩ := hparent
      obtain ⟨same, hsame, rfl, -⟩ := hother
      obtain rfl : same = node := Option.some.inj (hsame.symm.trans hnode)
      exact List.mem_cons_self ..
    · exact List.mem_cons_of_mem _ (h.closed pid hpid other hother)

/-- Where the chain is cut it is closed. -/
private theorem Growing.cut (h : Growing f pool pass start below top) {node : ProcessNode}
    (hnode : f.get? top = some node)
    (hcut : (node.ppid.isRoot || (top :: below).contains node.ppid ||
      pass.tested.contains node.ppid || !isAvailable pool pass node.ppid) = true) :
    ChainSpec f pool pass start (top :: below) pass where
  start_mem := h.start_mem
  available := h.available
  contains := h.contains
  linked := h.linked
  closed := by
    intro pid hpid parent hparent
    -- Only the topmost member can have a parent outside the chain, and the cut says why.
    rcases List.mem_cons.mp hpid with rfl | hpid
    · exact closed_of_cut hnode hcut hparent
    · exact Or.inl (h.closed pid hpid parent hparent)
  used_eq := rfl
  tested := fun _ hpid => Or.inl hpid

/-- A member that was marked as tested while the chain grew is in the chain, so the chain is closed
in the pass before it too. -/
private theorem ChainSpec.unmark {chain : List Pid} {after : Pass} {marked : Pid}
    (c : ChainSpec f pool { pass with tested := marked :: pass.tested } start chain after)
    (hmarked : marked ∈ chain) : ChainSpec f pool pass start chain after := by
  refine { c with closed := ?_, tested := ?_ }
  · intro pid hpid parent hparent
    rcases c.closed pid hpid parent hparent with hchain | htested | hused
    · exact Or.inl hchain
    -- What was tested after the mark is the marked process, which is in the chain, or was tested
    -- before.
    · rcases List.mem_cons.mp htested with rfl | htested
      · exact Or.inl hmarked
      · exact Or.inr (Or.inl htested)
    · exact Or.inr (Or.inr hused)
  · intro pid hpid
    rcases c.tested pid hpid with htested | hchain
    · rcases List.mem_cons.mp htested with rfl | htested
      · exact Or.inr hmarked
      · exact Or.inl htested
    · exact Or.inr hchain

/-- A chain grows by parents until it is cut; the bound is not reached before that. -/
private theorem chainFrom_grows (hf : f.Linked) (bound : Nat)
    (h : Growing f pool pass start below top) (hbound : f.nodes.length ≤ bound + below.length) :
    ChainSpec f pool pass start
      (chainFrom f pool bound pass (top :: below) (top :: below) top).1
      (chainFrom f pool bound pass (top :: below) (top :: below) top).2 := by
  induction bound generalizing pass below top with
  -- A chain of this length would have more members than the forest has processes.
  | zero =>
    have hlength := h.length_le
    omega
  | succ bound ih =>
    obtain ⟨node, hnode⟩ := Forest.contains_iff.mp (h.contains top (List.mem_cons_self ..))
    simp only [chainFrom, hnode]
    split
    -- The parent of the topmost member is not to be added.
    case isTrue hcut => exact h.cut hnode hcut
    case isFalse hgo =>
      simp only [Bool.or_eq_true, not_or, Bool.not_eq_true, Bool.not_eq_false',
        List.contains_eq_mem, decide_eq_false_iff_not] at hgo
      obtain ⟨⟨⟨hroot, hnew⟩, -⟩, hfree⟩ := hgo
      -- It is to be added, so it is a new process in the pool.
      have hparent : f.ParentIn pool top node.ppid :=
        ⟨node, hnode, rfl, (isAvailable_iff.mp hfree).1, hroot⟩
      have hspec := ih (h.up hf hparent hnew hfree) (by rw [List.length_cons]; omega)
      -- The chain was closed in a pass in which the new parent is marked.
      exact hspec.unmark (mem_chainFrom (List.mem_cons_self ..))

end Growing

/-- The chain of a process is closed, also if parents run in a circle. -/
theorem chainFrom_spec (hf : f.Linked) {pass : Pass} {start : Pid}
    (hstart : isAvailable pool pass start = true) (hcon : f.contains start = true) :
    ChainSpec f pool pass start
      (chainFrom f pool (f.nodes.length + 1) pass [start] [start] start).1
      (chainFrom f pool (f.nodes.length + 1) pass [start] [start] start).2 :=
  chainFrom_grows hf (f.nodes.length + 1) (growing_start hstart hcon) (by omega)

end Detector

end SoftwareCensus
