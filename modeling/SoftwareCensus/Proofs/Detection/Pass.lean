import SoftwareCensus.Proofs.Detection.AncestorChain

/-!
# Passes over the Pool

A pass goes through the pool and claims subtrees. Two facts carry everything that is known about it:
what is claimed is closed downwards, and a process that was tested is claimed or has no match at it
or above it. So a walk that ends at a tested process misses nothing.

## Main results

* `detect_progress` : what is known after a pass over the whole pool
* `detect_leaves_no_match` : a pass leaves no match in the pool, and a second one finds nothing
* `matching_ancestor_claimed` : an instance has all matching ancestors that were available
* `detect_seeds_placed` : where an instance is reported, what it claims, and what is left
-/

namespace SoftwareCensus.Detector

variable {d : Detector} {f : Forest} {pool : Pool} {pass after : Pass} {pid : Pid}
  {node : ProcessNode}

/-! ## Claims -/

/-- What is claimed for a process that matches. -/
def claimOf (d : Detector) (f : Forest) (pool : Pool) (pass : Pass) (node : ProcessNode) :
    List Pid :=
  f.subtreePids (d.representativeOf pool pass node) (isAvailable pool pass)

/-- A match is reported at its process, or at a parent that is available. -/
theorem representativeOf_cases (d : Detector) (pool : Pool) (pass : Pass) (node : ProcessNode) :
    d.representativeOf pool pass node = node.pid ∨
      d.representativeOf pool pass node = node.ppid ∧ node.ppid.isRoot = false ∧
        node.ppid ≠ node.pid ∧ isAvailable pool pass node.ppid = true := by
  rw [representativeOf]
  split
  · exact Or.inl rfl
  · split
    case isTrue h =>
      simp only [Bool.and_eq_true, Bool.not_eq_true', bne_iff_ne] at h
      exact Or.inr ⟨rfl, h.1.1, h.1.2, h.2⟩
    case isFalse => exact Or.inl rfl

/-- The place of a match is available, and the process that matches is claimed with it. -/
theorem claimOf_spec (hf : f.Linked) (hnode : f.get? pid = some node)
    (hpid : isAvailable pool pass pid = true) :
    (∃ rest, d.claimOf f pool pass node = d.representativeOf pool pass node :: rest) ∧
      pid ∈ d.claimOf f pool pass node := by
  have hself : node.pid = pid := Forest.pid_of_get? hnode
  have hcon : f.contains pid = true := Forest.contains_iff.mpr ⟨node, hnode⟩
  -- The match is at its process, or one step below the process that it is reported at.
  rcases representativeOf_cases d pool pass node with hrep | ⟨hrep, hroot, hne, havailable⟩
  · rw [claimOf, hrep, hself]
    exact ⟨Forest.subtreePids_eq_cons hpid hcon, Forest.root_mem_subtreePids hpid hcon⟩
  · rw [hself] at hne
    have hparent : f.ParentIn pool pid node.ppid :=
      ⟨node, hnode, rfl, (isAvailable_iff.mp havailable).1, hroot⟩
    have hppid : f.contains node.ppid = true := hf.contains_of_parentIn hparent
    rw [claimOf, hrep]
    exact ⟨Forest.subtreePids_eq_cons havailable hppid,
      Forest.mem_subtreePids_of_hasChild (Forest.root_mem_subtreePids havailable hppid)
        (hf.hasChild_of_parentIn hparent (Ne.symm hne)) hpid hcon⟩

/-- What is claimed for a process, and what becomes of the pass. -/
theorem tryClaim_eq_some {seed : Seed} (h : d.tryClaim f pool pass pid = some (seed, after)) :
    ∃ node, f.get? pid = some node ∧ d.isSoftware node.cmdline = true ∧
      seed = ⟨d.name, d.representativeOf pool pass node, pid, d.claimOf f pool pass node⟩ ∧
      after = { pass with used := d.claimOf f pool pass node ++ pass.used } := by
  rw [tryClaim] at h
  cases hnode : f.get? pid with
  -- Nothing is claimed without a node or without a match.
  | none => simp [hnode] at h
  | some node =>
    cases hsoft : d.isSoftware node.cmdline with
    | false => simp [hnode, hsoft] at h
    | true =>
      simp only [hnode, hsoft, Bool.not_true, Bool.false_eq_true, if_false] at h
      split at h
      · cases h
      · simp only [Option.some.injEq, Prod.mk.injEq] at h
        exact ⟨node, rfl, hsoft, h.1.symm, h.2.symm⟩

/-- What a claim changes about a pass. -/
theorem tryClaim_effect {seed : Seed} (h : d.tryClaim f pool pass pid = some (seed, after)) :
    seed.matched = pid ∧ after.used = seed.claimed ++ pass.used ∧ after.tested = pass.tested := by
  obtain ⟨node, -, -, rfl, rfl⟩ := tryClaim_eq_some h
  exact ⟨rfl, rfl, rfl⟩

/-- A process that is available and matches is claimed. -/
theorem not_matches_of_tryClaim (hf : f.Linked) (hpid : isAvailable pool pass pid = true)
    (h : d.tryClaim f pool pass pid = none) : ¬ d.Matches f pid := by
  rintro ⟨node, hnode, hsoft⟩
  obtain ⟨⟨rest, hrest⟩, -⟩ := claimOf_spec (d := d) hf hnode hpid
  rw [claimOf, Forest.subtreePids] at hrest
  simp [tryClaim, hnode, hsoft, hrest] at h

/-- A claim keeps what is claimed closed downwards. -/
theorem DownClosed.of_tryClaim {seed : Seed} (hf : f.Linked) (h : DownClosed f pool pass.used)
    (hclaim : d.tryClaim f pool pass pid = some (seed, after)) : DownClosed f pool after.used := by
  obtain ⟨node, -, -, -, rfl⟩ := tryClaim_eq_some hclaim
  intro child parent hchild hparent hused
  -- A child that was claimed before stays claimed.
  by_cases hbefore : child ∈ pass.used
  · exact List.mem_append_right _ hbefore
  · rcases List.mem_append.mp hused with hclaim | hused
    -- The parent is claimed now, and its child is in the same subtree unless they are one process.
    · by_cases hself : child = parent
      · rw [hself]
        exact List.mem_append_left _ hclaim
      · have hlinked := hf.hasChild_of_parentIn hparent hself
        obtain ⟨own, hown, -⟩ := hparent
        exact List.mem_append_left _ (Forest.mem_subtreePids_of_hasChild hclaim hlinked
          (isAvailable_iff.mpr ⟨hchild, hbefore⟩) (Forest.contains_iff.mpr ⟨own, hown⟩))
    · exact absurd (h child parent hchild hparent hused) hbefore

/-! ## Chains that are tested -/

section Chain

variable {start : Pid} {chain : List Pid} (c : ChainSpec f pool pass start chain after)
  (hdown : DownClosed f pool pass.used)
  (htested : ∀ pid ∈ pass.tested, pid ∈ pass.used ∨ Clear d f pool pid)

include c hdown htested

/-- Above a chain there is nothing that matches and could be claimed. -/
theorem ChainSpec.parent_cases {parent : Pid} (hpid : pid ∈ chain)
    (hparent : f.ParentIn pool pid parent) : parent ∈ chain ∨ Clear d f pool parent := by
  have hfree := isAvailable_iff.mp (c.available pid hpid)
  have hunused : parent ∉ pass.used := fun h => hfree.2 (hdown pid parent hfree.1 hparent h)
  -- The parent is a member, was tested and so is clear, or was claimed, which it cannot be.
  rcases c.closed pid hpid parent hparent with hchain | htest | hused
  · exact Or.inl hchain
  · exact Or.inr ((htested parent htest).resolve_left hunused)
  · exact absurd hused hunused

/-- Once a chain is tested, every member is claimed or clear. -/
theorem ChainSpec.settled {used : List Pid} (hused : DownClosed f pool used)
    (hchain : ∀ pid ∈ chain, pid ∈ used ∨ ¬ d.Matches f pid) :
    ∀ pid ∈ chain, pid ∈ used ∨ Clear d f pool pid := by
  intro pid hpid
  by_cases hmem : pid ∈ used
  · exact Or.inl hmem
  -- What is closed are the members that are not claimed, together with what is clear above them.
  · refine Or.inr (clear_of_closed
      (P := fun q => q ∈ chain ∧ q ∉ used ∨ Clear d f pool q) ?_ ?_ (Or.inl ⟨hpid, hmem⟩))
    · rintro child parent (⟨hmember, hfree⟩ | hclear) hparent
      · rcases c.parent_cases hdown htested hmember hparent with hchain | hclear
        · have hpool := (isAvailable_iff.mp (c.available child hmember)).1
          exact Or.inl ⟨hchain, fun h => hfree (hused child parent hpool hparent h)⟩
        · exact Or.inr hclear
      · exact Or.inr (hclear.parent hparent)
    · rintro q (⟨hmember, hfree⟩ | hclear)
      · exact (hchain q hmember).resolve_left hfree
      · exact hclear.not_matches

/-- Above a member of a chain there are members only, and what is clear. -/
theorem ChainSpec.mem_or_clear {ancestor : Pid} (hpid : pid ∈ chain)
    (hpath : Relation.TransGen (f.ParentIn pool) pid ancestor) :
    ancestor ∈ chain ∨ Clear d f pool ancestor := by
  -- By induction on the way up from the member.
  induction hpath with
  | single hparent => exact c.parent_cases hdown htested hpid hparent
  | tail _ hparent ih =>
    rcases ih with hmember | hclear
    · exact c.parent_cases hdown htested hmember hparent
    · exact Or.inr (hclear.parent hparent)

end Chain

/-- What is below a claimed member of a chain is claimed with it. -/
private theorem used_of_below {used below : List Pid} {top : Pid}
    (hused : DownClosed f pool used) (htop : top ∈ used)
    (hlinked : (top :: below).IsChain fun parent child => f.ParentIn pool child parent)
    (hpool : ∀ pid ∈ below, pool.contains pid = true) : ∀ pid ∈ below, pid ∈ used := by
  induction below generalizing top with
  | nil => simp
  | cons next rest ih =>
    obtain ⟨hnext, hrest⟩ := List.isChain_cons_cons.mp hlinked
    -- The next member is a child of one that is claimed.
    have hnextUsed : next ∈ used :=
      hused next top (hpool next (List.mem_cons_self ..)) hnext htop
    have hpoolRest : ∀ pid ∈ rest, pool.contains pid = true :=
      fun pid hpid => hpool pid (List.mem_cons_of_mem _ hpid)
    exact List.forall_mem_cons.mpr ⟨hnextUsed, ih hnextUsed hrest hpoolRest⟩

/-- A claim settles the chain of its process: nothing matches above it, as nothing was claimed
there, and what is below it is claimed with it. -/
private theorem ChainSpec.settled_of_claim {start : Pid} {above below used : List Pid} {mid : Pass}
    (c : ChainSpec f pool pass start (above ++ pid :: below) mid) (hf : f.Linked)
    (habove : ∀ q ∈ above, d.tryClaim f pool mid q = none) (hused : DownClosed f pool used)
    (hpid : pid ∈ used) : ∀ q ∈ above ++ pid :: below, q ∈ used ∨ ¬ d.Matches f q := by
  intro q hq
  -- The members above were tried in vain; those below are claimed with their ancestor.
  rcases List.mem_append.mp hq with habv | hrest
  · exact Or.inr (not_matches_of_tryClaim hf (c.available_after hq) (habove q habv))
  · rcases List.mem_cons.mp hrest with rfl | hbelow
    · exact Or.inl hpid
    · refine Or.inl (used_of_below hused hpid c.linked.right_of_append ?_ q hbelow)
      intro r hr
      exact (isAvailable_iff.mp (c.available r (by simp [hr]))).1

/-! ## Seeds -/

/-- Whether a process is in the pool and belongs to none of the seeds. -/
def isFree (pool : Pool) (seeds : List Seed) (pid : Pid) : Bool :=
  pool.contains pid && !seeds.any (·.owns pid)

/-- What a pass promises about a seed, given the seeds before it. -/
structure Placed (d : Detector) (f : Forest) (pool : Pool) (earlier : List Seed) (seed : Seed) :
    Prop where
  softwareType_eq : seed.softwareType = d.name
  matches_matched : d.Matches f seed.matched
  /-- A match is reported at its process, or at its parent if the detector wants that and the parent
  is a free process of its own. -/
  representative_eq : ∀ node, f.get? seed.matched = some node →
    seed.representative = match d.processType with
      | .parent => seed.matched
      | .child =>
        if node.ppid.isRoot = false ∧ node.ppid ≠ seed.matched ∧
          isFree pool earlier node.ppid = true then node.ppid else seed.matched
  claimed_eq : seed.claimed = f.subtreePids seed.representative (isFree pool earlier)
  head_eq : seed.claimed.head? = some seed.representative
  matched_mem : seed.matched ∈ seed.claimed

/-- What is claimed for a process is a seed that is placed where the pass stands. -/
theorem placed_of_tryClaim {seeds : List Seed} {seed : Seed} (hf : f.Linked)
    (hpid : isAvailable pool pass pid = true) (hfree : isAvailable pool pass = isFree pool seeds)
    (h : d.tryClaim f pool pass pid = some (seed, after)) : Placed d f pool seeds seed := by
  obtain ⟨node, hnode, hsoft, rfl, -⟩ := tryClaim_eq_some h
  obtain ⟨⟨rest, hrest⟩, hmem⟩ := claimOf_spec (d := d) hf hnode hpid
  refine ⟨rfl, ⟨node, hnode, hsoft⟩, ?_, ?_, ?_, hmem⟩
  · intro same hsame
    obtain rfl : same = node := Option.some.inj (hsame.symm.trans hnode)
    have hself : same.pid = pid := Forest.pid_of_get? hnode
    -- A detector that reports at the process itself does not look at the parent.
    cases htype : d.processType with
    | parent => simp only [representativeOf, htype, hself]
    | child =>
      simp only [representativeOf, htype, hself, hfree, Bool.and_eq_true, Bool.not_eq_true',
        bne_iff_ne, and_assoc]
  · simp only [claimOf, hfree]
  · rw [hrest]
    rfl

/-! ## The state of a pass -/

/-- What is known when a pass has looked at some processes. -/
structure Progress (d : Detector) (f : Forest) (pool : Pool) (done : List Pid) (seeds : List Seed)
    (pass : Pass) : Prop where
  used_iff : ∀ pid, pid ∈ pass.used ↔ ∃ seed ∈ seeds, pid ∈ seed.claimed
  down : DownClosed f pool pass.used
  tested : ∀ pid ∈ pass.tested, pid ∈ pass.used ∨ Clear d f pool pid
  done_settled : ∀ pid ∈ done, pid ∈ pass.used ∨ ¬ d.Matches f pid
  placed : ∀ earlier seed later, seeds = earlier ++ seed :: later → Placed d f pool earlier seed
  ancestors : ∀ seed ∈ seeds, ∀ ancestor,
    Relation.TransGen (f.ParentIn pool) seed.matched ancestor → d.Matches f ancestor →
      ancestor ∈ seed.claimed

variable {done : List Pid} {seeds : List Seed}

theorem progress_start (d : Detector) (f : Forest) (pool : Pool) : Progress d f pool [] [] {} where
  used_iff := by simp
  down := by simp [DownClosed]
  tested := by simp
  done_settled := by simp
  placed := by simp
  ancestors := by simp

/-- A process that is settled is passed over. -/
theorem Progress.skip (h : Progress d f pool done seeds pass)
    (hpid : pid ∈ pass.used ∨ ¬ d.Matches f pid) :
    Progress d f pool (done ++ [pid]) seeds pass where
  used_iff := h.used_iff
  down := h.down
  tested := h.tested
  done_settled := by
    intro q hq
    rcases List.mem_append.mp hq with hq | hq
    · exact h.done_settled q hq
    · rw [List.mem_singleton.mp hq]
      exact hpid
  placed := h.placed
  ancestors := h.ancestors

/-- What is available is what no seed has. -/
theorem Progress.isAvailable_eq (h : Progress d f pool done seeds pass) :
    isAvailable pool pass = isFree pool seeds := by
  funext q
  -- What is used is what some seed owns.
  have hused : pass.used.contains q = seeds.any (·.owns q) := by
    rw [Bool.eq_iff_iff]
    simp [h.used_iff, Seed.owns]
  rw [isAvailable, isFree, hused]

/-- A seed that comes last is the last one, or stands behind one that was there. -/
private theorem eq_or_of_concat {α : Type} {items earlier later : List α} {x y : α}
    (h : items ++ [x] = earlier ++ y :: later) :
    items = earlier ∧ x = y ∨ ∃ rest, items = earlier ++ y :: rest := by
  rcases List.eq_nil_or_concat later with rfl | ⟨rest, z, rfl⟩
  · obtain ⟨hitems, hlast⟩ := List.append_inj' h rfl
    exact Or.inl ⟨hitems, (List.cons.inj hlast).1⟩
  · rw [List.concat_eq_append, ← List.cons_append, ← List.append_assoc] at h
    exact Or.inr ⟨rest, (List.append_inj' h rfl).1⟩

/-! ## Testing a chain -/

section Test

variable {start : Pid} {chain : List Pid} {mid : Pass}

/-- If no member of a chain is claimed, nothing matches in it. -/
theorem Progress.noClaim (h : Progress d f pool done seeds pass) (hf : f.Linked)
    (c : ChainSpec f pool pass start chain mid)
    (hnone : ∀ pid ∈ chain, d.tryClaim f pool mid pid = none) :
    Progress d f pool (done ++ [start]) seeds mid := by
  -- Every member was available when it was tried.
  have hno : ∀ pid ∈ chain, ¬ d.Matches f pid := by
    intro q hq
    exact not_matches_of_tryClaim hf (c.available_after hq) (hnone q hq)
  have hsettled := c.settled h.down h.tested h.down fun q hq => Or.inr (hno q hq)
  refine Progress.skip ⟨?_, ?_, ?_, ?_, h.placed, h.ancestors⟩ (Or.inr (hno start c.start_mem))
  · rw [c.used_eq]
    exact h.used_iff
  · rw [c.used_eq]
    exact h.down
  · rw [c.used_eq]
    intro q hq
    -- What was tested was tested before, or is a member of the chain.
    exact (c.tested q hq).elim (h.tested q) (hsettled q)
  · rw [c.used_eq]
    exact h.done_settled

/-- If a member of a chain is claimed and none above it was, the whole chain is settled. -/
theorem Progress.claim (h : Progress d f pool done seeds pass) (hf : f.Linked)
    {above below : List Pid} (c : ChainSpec f pool pass start (above ++ pid :: below) mid)
    (habove : ∀ q ∈ above, d.tryClaim f pool mid q = none) {seed : Seed}
    (hclaim : d.tryClaim f pool mid pid = some (seed, after)) :
    Progress d f pool (done ++ [start]) (seeds ++ [seed]) after := by
  have hmember : pid ∈ above ++ pid :: below := by simp
  have hfree : isAvailable pool mid = isFree pool seeds := c.isAvailable_eq.trans h.isAvailable_eq
  have hplaced : Placed d f pool seeds seed :=
    placed_of_tryClaim hf (c.available_after hmember) hfree hclaim
  have hdown : DownClosed f pool after.used :=
    DownClosed.of_tryClaim hf (c.used_eq ▸ h.down) hclaim
  obtain ⟨rfl, hused, htested⟩ := tryClaim_effect hclaim
  rw [c.used_eq] at hused
  -- A claim adds to what is used.
  have hgrow : ∀ q ∈ pass.used, q ∈ after.used := by
    intro q hq
    rw [hused]
    exact List.mem_append_right _ hq
  have hmatched : seed.matched ∈ after.used := by
    rw [hused]
    exact List.mem_append_left _ hplaced.matched_mem
  have hchain := c.settled_of_claim hf habove hdown hmatched
  refine ⟨?_, hdown, ?_, ?_, ?_, ?_⟩
  · intro q
    rw [hused, List.mem_append, h.used_iff]
    simp [or_comm]
  · rw [htested]
    intro q hq
    rcases c.tested q hq with hq | hq
    · exact (h.tested q hq).imp_left (hgrow q)
    · exact c.settled h.down h.tested hdown hchain q hq
  · intro q hq
    rcases List.mem_append.mp hq with hq | hq
    · exact (h.done_settled q hq).imp_left (hgrow q)
    · rw [List.mem_singleton.mp hq]
      exact hchain start c.start_mem
  -- The new seed is the last one, and those before it are placed as they were.
  · intro earlier s later hs
    rcases eq_or_of_concat hs with ⟨rfl, rfl⟩ | ⟨rest, hrest⟩
    · exact hplaced
    · exact h.placed earlier s rest hrest
  · intro s hs ancestor hpath hmatch
    rcases List.mem_append.mp hs with hs | hs
    · exact h.ancestors s hs ancestor hpath hmatch
    · obtain rfl := List.mem_singleton.mp hs
      -- Above the match there are members of the chain, and of these the claimed ones match.
      have hancestor := (c.mem_or_clear h.down h.tested hmember hpath).resolve_right
        fun hclear => hclear.not_matches hmatch
      have hclaimed := (hchain ancestor hancestor).resolve_right fun hno => hno hmatch
      rw [hused] at hclaimed
      have hunused := (isAvailable_iff.mp (c.available ancestor hancestor)).2
      exact (List.mem_append.mp hclaimed).resolve_right hunused

end Test

/-- Testing a chain of ancestors settles the process that it began with. -/
theorem Progress.checkHierarchy (h : Progress d f pool done seeds pass) (hf : f.Linked)
    {start : Pid} (hstart : isAvailable pool pass start = true) (hcon : f.contains start = true) :
    Progress d f pool (done ++ [start])
      (seeds ++ (d.checkHierarchy f pool pass start).1.toList)
      (d.checkHierarchy f pool pass start).2 := by
  have c := chainFrom_spec hf hstart hcon
  rw [Detector.checkHierarchy]
  generalize chainFrom f pool (f.nodes.length + 1) pass [start] [start] start = result at c ⊢
  obtain ⟨chain, mid⟩ := result
  cases hfind : chain.findSome? (d.tryClaim f pool mid) with
  -- No member was claimed.
  | none =>
    simp only [hfind, Option.toList_none, List.append_nil]
    exact h.noClaim hf c (by simpa using hfind)
  -- The members above the first one that was claimed were tried in vain.
  | some claimed =>
    obtain ⟨seed, after⟩ := claimed
    obtain ⟨above, pid, below, rfl, hclaim, habove⟩ := List.findSome?_eq_some_iff.mp hfind
    simp only [hfind, Option.toList_some]
    exact h.claim hf c habove hclaim

/-! ## Whole passes -/

/-- Looking at a process of the pool settles it. -/
theorem Progress.visit (h : Progress d f pool done seeds pass) (hf : f.Linked)
    (hpool : pool.contains pid = true) :
    Progress d f pool (done ++ [pid]) (d.visit f pool seeds pass pid).1
      (d.visit f pool seeds pass pid).2 := by
  rw [Detector.visit]
  split
  case isTrue hpass =>
    -- What was tested is claimed or clear.
    refine h.skip ?_
    simp only [Bool.or_eq_true, List.contains_iff_mem] at hpass
    rcases hpass with hused | htested
    · exact Or.inl hused
    · exact (h.tested pid htested).imp_right Clear.not_matches
  case isFalse hpass =>
    simp only [Bool.or_eq_true, List.contains_iff_mem, not_or] at hpass
    cases hnode : f.get? pid with
    -- A process of the pool without a node matches nothing.
    | none => exact h.skip (Or.inr (by simp [Matches, hnode]))
    | some node =>
      simp only
      split
      -- Nor does one without a command line.
      case isTrue hempty =>
        have hcmdline : node.cmdline = "" := by simpa using hempty
        exact h.skip (Or.inr (by simp [Matches, hnode, hcmdline, d.isSoftware_empty]))
      -- Its chain is tested.
      case isFalse =>
        have hstep := h.checkHierarchy (d := d) hf (isAvailable_iff.mpr ⟨hpool, hpass.1⟩)
          (Forest.contains_iff.mpr ⟨node, hnode⟩)
        generalize d.checkHierarchy f pool pass pid = result at hstep ⊢
        obtain ⟨_ | seed, after⟩ := result
        · simpa using hstep
        · simpa using hstep

private theorem foldl_progress (hf : f.Linked) (pids : List Pid)
    (hpool : ∀ pid ∈ pids, pool.contains pid = true) (h : Progress d f pool done seeds pass) :
    Progress d f pool (done ++ pids)
      (pids.foldl (fun (seeds, pass) pid => d.visit f pool seeds pass pid) (seeds, pass)).1
      (pids.foldl (fun (seeds, pass) pid => d.visit f pool seeds pass pid) (seeds, pass)).2 := by
  -- By induction on the processes that are still to be visited.
  induction pids generalizing done seeds pass with
  | nil => simpa using h
  | cons pid rest ih =>
    obtain ⟨hpid, hrest⟩ := List.forall_mem_cons.mp hpool
    have hstep := ih hrest (h.visit hf hpid)
    rw [List.append_assoc] at hstep
    exact hstep

/-- **What is known after a pass**: it looked at the whole pool, and what it claimed is gone. -/
theorem detect_progress (hf : f.Linked) (d : Detector) (pool : Pool) :
    ∃ pass, Progress d f pool pool.pids (d.detect f pool).1 pass ∧
      (d.detect f pool).2 = pool.claim pass.used :=
  ⟨_, foldl_progress hf pool.pids (fun _ => Pool.contains_iff.mpr)
    (progress_start d f pool), rfl⟩

/-- What a seed claims was free before it. -/
theorem Placed.isFree_of_mem {earlier : List Seed} {seed : Seed}
    (h : Placed d f pool earlier seed) (hpid : pid ∈ seed.claimed) :
    isFree pool earlier pid = true := by
  rw [h.claimed_eq] at hpid
  exact (Forest.include_of_mem_subtreePids hpid).1

/-- What a seed claims was in the pool. -/
theorem Placed.contains_of_mem {earlier : List Seed} {seed : Seed}
    (h : Placed d f pool earlier seed) (hpid : pid ∈ seed.claimed) : pool.contains pid = true := by
  have hfree := h.isFree_of_mem hpid
  rw [isFree, Bool.and_eq_true] at hfree
  exact hfree.1

/-- Every seed is placed, given the seeds before it. -/
theorem detect_placed (hf : f.Linked) {earlier later : List Seed} {seed : Seed}
    (h : (d.detect f pool).1 = earlier ++ seed :: later) : Placed d f pool earlier seed := by
  obtain ⟨pass, hprogress, -⟩ := detect_progress hf d pool
  exact hprogress.placed earlier seed later h

/-- A pass leaves what none of its seeds claims. -/
theorem detect_left (hf : f.Linked) (d : Detector) (pool : Pool) :
    (d.detect f pool).2.pids =
      pool.pids.filter fun pid => !(d.detect f pool).1.any (·.owns pid) := by
  obtain ⟨pass, hprogress, hleft⟩ := detect_progress hf d pool
  rw [hleft, Pool.claim]
  refine List.filter_congr fun pid hpid => ?_
  have hcontains : pool.contains pid = true := Pool.contains_iff.mpr hpid
  have havailable := congrFun hprogress.isAvailable_eq pid
  simpa [isAvailable, isFree, hcontains] using havailable

/-- A process that is left does not match. -/
theorem not_matches_of_left (hf : f.Linked) (hpid : pid ∈ (d.detect f pool).2.pids) :
    ¬ d.Matches f pid := by
  obtain ⟨pass, hprogress, hleft⟩ := detect_progress hf d pool
  rw [hleft, Pool.claim, List.mem_filter] at hpid
  have hunused : pid ∉ pass.used := by simpa using hpid.2
  exact (hprogress.done_settled pid hpid.1).resolve_left hunused

/-- A pass over a pool without a match leaves it as it is. -/
theorem detect_of_no_match (hf : f.Linked) (hno : ∀ pid ∈ pool.pids, ¬ d.Matches f pid) :
    d.detect f pool = ([], pool) := by
  have hseeds : (d.detect f pool).1 = [] := by
    cases hfound : (d.detect f pool).1 with
    | nil => rfl
    -- A first seed would have a match in the pool.
    | cons seed rest =>
      have hplaced : Placed d f pool [] seed := detect_placed hf hfound
      have hpool := hplaced.contains_of_mem hplaced.matched_mem
      exact absurd hplaced.matches_matched (hno seed.matched (Pool.contains_iff.mp hpool))
  have hpids : (d.detect f pool).2.pids = pool.pids := by
    rw [detect_left hf, hseeds]
    simp
  exact Prod.ext hseeds (congrArg Pool.mk hpids)

/-! ## What a pass guarantees -/

/-- **Detection misses nothing**: no process that a pass leaves in the pool matches, so a second
pass finds no instance and leaves the pool as it is. The detector of a signature is one whose
`isSoftware` searches for its pattern. -/
theorem detect_leaves_no_match (processes : List ProcessRecord) (pool : Pool) (d : Detector) :
    (∀ pid ∈ (d.detect (Forest.build processes) pool).2.pids,
      ¬ d.Matches (Forest.build processes) pid) ∧
    d.detect (Forest.build processes) (d.detect (Forest.build processes) pool).2 =
      ([], (d.detect (Forest.build processes) pool).2) := by
  have hf : (Forest.build processes).Linked := Forest.build_linked processes
  have hno : ∀ pid ∈ (d.detect (Forest.build processes) pool).2.pids,
      ¬ d.Matches (Forest.build processes) pid := fun pid hpid => not_matches_of_left hf hpid
  exact ⟨hno, detect_of_no_match hf hno⟩

/-- **Ancestors come first**: an instance has all matching ancestors of its match that are reached
through the pool. So none is reported below a matching ancestor that was available. -/
theorem matching_ancestor_claimed (processes : List ProcessRecord) (pool : Pool) (d : Detector)
    {seed : Seed} {ancestor : Pid} (hseed : seed ∈ (d.detect (Forest.build processes) pool).1)
    (hpath : Relation.TransGen ((Forest.build processes).ParentIn pool) seed.matched ancestor)
    (hmatch : d.Matches (Forest.build processes) ancestor) : ancestor ∈ seed.claimed := by
  obtain ⟨pass, hprogress, -⟩ := detect_progress (Forest.build_linked processes) d pool
  exact hprogress.ancestors seed hseed ancestor hpath hmatch

/-- Two processes that have each other as the parent. -/
private def circle : List ProcessRecord :=
  [{ pid := ⟨"3"⟩, ppid := ⟨"5"⟩, cmdline := "nginx" },
   { pid := ⟨"5"⟩, ppid := ⟨"3"⟩, cmdline := "nginx" }]

private def nginx (reportedAt : ProcessType) : Detector :=
  ⟨"nginx", reportedAt, (· == "nginx"), rfl⟩

/-- Process 3 is visited first, but 5 is tested before it and takes it along. -/
theorem matching_ancestor_claimed_circle :
    (⟨"nginx", ⟨"5"⟩, ⟨"5"⟩, [⟨"5"⟩, ⟨"3"⟩]⟩ : Seed) ∈
        ((nginx .parent).detect (Forest.build circle) ⟨[⟨"3"⟩, ⟨"5"⟩]⟩).1 ∧
      (⟨"3"⟩ : Pid) ∈ [(⟨"5"⟩ : Pid), ⟨"3"⟩] := by
  have hseed : (⟨"nginx", ⟨"5"⟩, ⟨"5"⟩, [⟨"5"⟩, ⟨"3"⟩]⟩ : Seed) ∈
      ((nginx .parent).detect (Forest.build circle) ⟨[⟨"3"⟩, ⟨"5"⟩]⟩).1 := by decide
  have hparent : (Forest.build circle).ParentIn ⟨[⟨"3"⟩, ⟨"5"⟩]⟩ ⟨"5"⟩ ⟨"3"⟩ :=
    ⟨_, rfl, rfl, by decide, by decide⟩
  have hmatch : (nginx .parent).Matches (Forest.build circle) ⟨"3"⟩ := ⟨_, rfl, rfl⟩
  exact ⟨hseed, matching_ancestor_claimed circle _ (nginx .parent) hseed (.single hparent) hmatch⟩

/-- **Where instances are reported**: every seed is placed among what the seeds before it left, and
the pool loses what the seeds claim and nothing else. -/
theorem detect_seeds_placed (processes : List ProcessRecord) (pool : Pool) (d : Detector) :
    (∀ earlier seed later,
      (d.detect (Forest.build processes) pool).1 = earlier ++ seed :: later →
        Placed d (Forest.build processes) pool earlier seed) ∧
    (d.detect (Forest.build processes) pool).2.pids =
      pool.pids.filter fun pid => !(d.detect (Forest.build processes) pool).1.any (·.owns pid) := by
  have hf : (Forest.build processes).Linked := Forest.build_linked processes
  exact ⟨fun _ _ _ hseeds => detect_placed hf hseeds, detect_left hf d pool⟩

/-- A worker is reported at its parent, which does not match. -/
theorem detect_seeds_placed_worker :
    Placed (nginx .child)
      (Forest.build [{ pid := ⟨"1"⟩ }, { pid := ⟨"2"⟩, ppid := ⟨"1"⟩, cmdline := "nginx" }])
      ⟨[⟨"1"⟩, ⟨"2"⟩]⟩ [] ⟨"nginx", ⟨"1"⟩, ⟨"2"⟩, [⟨"1"⟩, ⟨"2"⟩]⟩ :=
  (detect_seeds_placed _ _ (nginx .child)).1 [] _ [] (by decide)

end SoftwareCensus.Detector
