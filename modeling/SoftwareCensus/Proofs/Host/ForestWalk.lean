import SoftwareCensus.Proofs.Host.ForestLinks

/-!
# Walks over a Forest

A walk keeps a stack of pids and the pids that it met. The number of its rounds is bounded, and the
bound is enough: a round takes one pid from the stack, and the children of a node are put there only
once. So a subtree is closed under the children that are included, on cycles too.

## Main results

* `Forest.nodup_subtreePids` : a subtree has no pid twice
* `Forest.subtreePids_eq_cons` : a subtree begins with its root
* `Forest.mem_subtreePids_of_hasChild` : a subtree has all children that are included
* `Forest.subtreePids_again` : a walk over what a subtree has gives the subtree
-/

namespace SoftwareCensus.Forest

variable {f : Forest} {include_ : Pid → Bool} {bound : Nat} {seen stack : List Pid}

/-! ## What a walk meets -/

theorem get?_of_mem_walk {node : ProcessNode} (h : node ∈ f.walk include_ bound seen stack) :
    f.get? node.pid = some node := by
  -- The cases are those of a round: no rounds left, nothing on the stack, a pid that is passed
  -- over, a pid without a node, and a node that is met.
  fun_induction walk f include_ bound seen stack with
  | case1 => cases h
  | case2 => cases h
  | case3 bound seen pid stack hpass ih => exact ih h
  | case4 bound seen pid stack hpass hget ih => exact ih h
  | case5 bound seen pid stack hpass found hget ih =>
    rcases List.mem_cons.mp h with rfl | h
    · rw [pid_of_get? hget]
      exact hget
    · exact ih h

theorem include_of_mem_walk {node : ProcessNode} (h : node ∈ f.walk include_ bound seen stack) :
    include_ node.pid = true ∧ node.pid ∉ seen := by
  fun_induction walk f include_ bound seen stack with
  | case1 => cases h
  | case2 => cases h
  | case3 bound seen pid stack hpass ih => exact ih h
  -- A pid without a node counts as met, too, so more is left out further on.
  | case4 bound seen pid stack hpass hget ih =>
    exact ⟨(ih h).1, List.not_mem_of_not_mem_cons (ih h).2⟩
  | case5 bound seen pid stack hpass found hget ih =>
    rcases List.mem_cons.mp h with rfl | h
    · rw [pid_of_get? hget]
      simpa using hpass
    · exact ⟨(ih h).1, List.not_mem_of_not_mem_cons (ih h).2⟩

theorem nodup_walk (f : Forest) (include_ : Pid → Bool) (bound : Nat) (seen stack : List Pid) :
    ((f.walk include_ bound seen stack).map (·.pid)).Nodup := by
  fun_induction walk f include_ bound seen stack with
  | case1 => exact List.nodup_nil
  | case2 => exact List.nodup_nil
  | case3 bound seen pid stack hpass ih => exact ih
  | case4 bound seen pid stack hpass hget ih => exact ih
  | case5 bound seen pid stack hpass node hget ih =>
    rw [List.map_cons, List.nodup_cons]
    refine ⟨?_, ih⟩
    -- The rest of the walk has met the node, so it passes it over.
    intro hmem
    obtain ⟨later, hlater, hpid⟩ := List.mem_map.mp hmem
    refine (include_of_mem_walk hlater).2 ?_
    rw [hpid, pid_of_get? hget]
    exact List.mem_cons_self ..

/-! ## The bound of a walk -/

/-- The number of children of the nodes that a walk has not met. -/
def unmet (seen : List Pid) : List ProcessNode → Nat
  | [] => 0
  | node :: rest => (if node.pid ∈ seen then 0 else node.children.length) + unmet seen rest

private theorem unmet_seen_le (pid : Pid) (seen : List Pid) (nodes : List ProcessNode) :
    unmet (pid :: seen) nodes ≤ unmet seen nodes := by
  induction nodes with
  | nil => exact Nat.le_refl _
  | cons node rest ih =>
    rw [unmet, unmet]
    refine Nat.add_le_add ?_ ih
    -- A node that was met counts nothing on either side.
    by_cases h : node.pid ∈ seen
    · simp [h]
    · split <;> simp

/-- A node that is met takes its children out of the account. -/
theorem unmet_of_mem {node : ProcessNode} {nodes : List ProcessNode}
    (hmem : node ∈ nodes) (hnew : node.pid ∉ seen) :
    node.children.length + unmet (node.pid :: seen) nodes ≤ unmet seen nodes := by
  induction nodes with
  | nil => cases hmem
  | cons n rest ih =>
    rw [unmet, unmet]
    -- The node counts once, where it stands; the others count the same, or less if they have its
    -- pid.
    rcases List.mem_cons.mp hmem with rfl | hmem
    · have hle := unmet_seen_le node.pid seen rest
      simp only [List.mem_cons_self, if_true, hnew, if_false]
      omega
    · have hrest := ih hmem
      by_cases h : n.pid ∈ seen
      · simp only [List.mem_cons, h, or_true, if_true]
        omega
      · by_cases hpid : n.pid = node.pid
        · simp only [List.mem_cons, hpid, hnew, true_or, if_true, if_false]
          omega
        · simp only [List.mem_cons, hpid, h, or_self, if_false]
          omega

private theorem foldl_children (nodes : List ProcessNode) (start : Nat) :
    nodes.foldl (fun n node => n + node.children.length) start = start + unmet [] nodes := by
  induction nodes generalizing start with
  | nil => rfl
  | cons node rest ih =>
    rw [List.foldl_cons, ih, unmet, if_neg List.not_mem_nil]
    omega

theorem walkBound_eq (f : Forest) : f.walkBound = 1 + unmet [] f.nodes :=
  foldl_children f.nodes 1

/-! ## A walk meets everything -/

/-- Rounds are enough for a walk if they cover the stack and the children of all unmet nodes. What
is on the stack is met then, and so are the children of what is met. -/
theorem walk_complete (hbound : stack.length + unmet seen f.nodes ≤ bound) :
    (∀ pid ∈ stack, include_ pid = true → pid ∉ seen → f.contains pid = true →
      pid ∈ (f.walk include_ bound seen stack).map (·.pid)) ∧
    ∀ node ∈ f.walk include_ bound seen stack, ∀ child ∈ node.children, include_ child = true →
      child ∉ seen → f.contains child = true →
      child ∈ (f.walk include_ bound seen stack).map (·.pid) := by
  fun_induction walk f include_ bound seen stack with
  -- There are no rounds left, so the bound says that there is nothing on the stack.
  | case1 seen stack =>
    have hempty : stack = [] := List.eq_nil_of_length_eq_zero (by omega)
    subst hempty
    simp
  | case2 => simp
  | case3 bound seen pid stack hpass ih =>
    obtain ⟨hstack, hchildren⟩ := ih (by simp only [List.length_cons] at hbound; omega)
    refine ⟨?_, hchildren⟩
    intro q hq hinclude hnew hcon
    rcases List.mem_cons.mp hq with rfl | hq
    · simp [hinclude, hnew] at hpass
    · exact hstack q hq hinclude hnew hcon
  | case4 bound seen pid stack hpass hget ih =>
    -- The round takes a pid from the stack and puts nothing there.
    have hle := unmet_seen_le pid seen f.nodes
    obtain ⟨hstack, hchildren⟩ := ih (by simp only [List.length_cons] at hbound; omega)
    have hnode : ∀ q, f.contains q = true → q ≠ pid := by
      rintro q hcon rfl
      simp [contains, hget] at hcon
    constructor
    · intro q hq hinclude hnew hcon
      rcases List.mem_cons.mp hq with rfl | hq
      · exact absurd rfl (hnode q hcon)
      · exact hstack q hq hinclude (by simp [hnode q hcon, hnew]) hcon
    · intro node hmem child hchild hinclude hnew hcon
      exact hchildren node hmem child hchild hinclude (by simp [hnode child hcon, hnew]) hcon
  | case5 bound seen pid stack hpass node hget ih =>
    have hpid : node.pid = pid := pid_of_get? hget
    -- The children are put on the stack, and the account pays for them.
    have hnew : node.pid ∉ seen := by
      rw [hpid]
      intro hmem
      simp [hmem] at hpass
    have hle := unmet_of_mem (mem_nodes_of_get? hget) hnew
    rw [hpid] at hle
    obtain ⟨hstack, hchildren⟩ := ih (by
      simp only [List.length_cons, List.length_append] at hbound ⊢
      omega)
    -- A pid that is new is the one just met, or still new for the rest of the walk.
    have hmeet : ∀ q ∈ node.children ++ stack, include_ q = true → q ∉ seen →
        f.contains q = true → q ∈ (node :: f.walk include_ bound (pid :: seen)
          (node.children ++ stack)).map (·.pid) := by
      intro q hq hinclude hq' hcon
      by_cases h : q = pid
      · rw [h, ← hpid]
        exact List.mem_cons_self ..
      · exact List.mem_cons_of_mem _ (hstack q hq hinclude (by simp [h, hq']) hcon)
    constructor
    · intro q hq hinclude hq' hcon
      rcases List.mem_cons.mp hq with rfl | hq
      · rw [← hpid]
        exact List.mem_cons_self ..
      · exact hmeet q (List.mem_append_right _ hq) hinclude hq' hcon
    · intro n hn child hchild hinclude hchild' hcon
      rcases List.mem_cons.mp hn with rfl | hn
      · exact hmeet child (List.mem_append_left _ hchild) hinclude hchild' hcon
      -- A child that is the node itself was just met.
      · by_cases h : child = pid
        · rw [h, ← hpid]
          exact List.mem_cons_self ..
        · exact List.mem_cons_of_mem _
            (hchildren n hn child hchild hinclude (by simp [h, hchild']) hcon)

/-- All bounds that are enough for a walk give the same walk. -/
theorem walk_eq_of_enough {other : Nat} (hbound : stack.length + unmet seen f.nodes ≤ bound)
    (hother : stack.length + unmet seen f.nodes ≤ other) :
    f.walk include_ bound seen stack = f.walk include_ other seen stack := by
  -- Both walks take the same round as long as the stack has something, and both bounds pay for it.
  induction bound generalizing other seen stack with
  | zero =>
    have hempty : stack = [] := List.eq_nil_of_length_eq_zero (by omega)
    subst hempty
    cases other <;> rfl
  | succ bound ih =>
    cases stack with
    | nil => cases other <;> rfl
    | cons pid stack =>
      rw [List.length_cons] at hbound hother
      obtain ⟨other, rfl⟩ : ∃ less, other = less + 1 := ⟨other - 1, by omega⟩
      rw [walk, walk]
      split
      case isTrue => exact ih (by omega) (by omega)
      case isFalse hpass =>
        cases hget : f.get? pid with
        | none =>
          have hle := unmet_seen_le pid seen f.nodes
          exact ih (by omega) (by omega)
        | some node =>
          have hpid : node.pid = pid := pid_of_get? hget
          have hnew : node.pid ∉ seen := by
            rw [hpid]
            intro hmem
            simp [hmem] at hpass
          have hle := unmet_of_mem (mem_nodes_of_get? hget) hnew
          rw [hpid] at hle
          have hlength : (node.children ++ stack).length = node.children.length + stack.length :=
            List.length_append
          exact congrArg (node :: ·) (ih (by omega) (by omega))

/-- A walk that includes only what another walk met, but all of that, is the same walk. -/
theorem walk_restrict {again : Pid → Bool}
    (hf : ∀ {pid child}, f.HasChild pid child → f.contains child = true)
    (hstack : ∀ pid ∈ stack, f.contains pid = true)
    (hless : ∀ pid, again pid = true → include_ pid = true)
    (hmet : ∀ node ∈ f.walk include_ bound seen stack, again node.pid = true) :
    f.walk again bound seen stack = f.walk include_ bound seen stack := by
  induction bound generalizing seen stack with
  | zero => rfl
  | succ bound ih =>
    cases stack with
    | nil => rfl
    | cons pid stack =>
      obtain ⟨hcon, hrest⟩ := List.forall_mem_cons.mp hstack
      obtain ⟨node, hnode⟩ := contains_iff.mp hcon
      rw [walk] at hmet
      rw [walk, walk]
      by_cases hpass : (!include_ pid || seen.contains pid) = true
      · -- What the other walk passes over is not included here either, or was met here too.
        have hagain : (!again pid || seen.contains pid) = true := by
          cases hpid : again pid with
          | false => rfl
          | true => simpa [hless pid hpid] using hpass
        rw [if_pos hpass] at hmet ⊢
        rw [if_pos hagain]
        exact ih hrest hmet
      · rw [if_neg hpass, hnode] at hmet
        obtain ⟨hpid, hlater⟩ := List.forall_mem_cons.mp hmet
        rw [pid_of_get? hnode] at hpid
        have hnew : pid ∉ seen := by
          intro hmem
          simp [hmem] at hpass
        -- What the other walk met is included here, and it is as new here as there.
        have hgo : ¬ (!again pid || seen.contains pid) = true := by simp [hpid, hnew]
        have hstacked : ∀ q ∈ node.children ++ stack, f.contains q = true := by
          intro q hq
          rcases List.mem_append.mp hq with hchild | hq
          · exact hf ⟨node, hnode, hchild⟩
          · exact hrest q hq
        rw [if_neg hpass, if_neg hgo, hnode]
        exact congrArg (node :: ·) (ih hstacked hlater)

/-! ## Pids that were not met -/

/-- How many processes of a forest are not among those that were met. -/
def unseen (f : Forest) (seen : List Pid) : Nat := f.pids.countP fun pid => !seen.contains pid

theorem unseen_le (f : Forest) (seen : List Pid) : f.unseen seen ≤ f.nodes.length := by
  have hle : f.unseen seen ≤ f.pids.length := List.countP_le_length
  rwa [pids, List.length_map] at hle

/-- The more are met, the fewer are not. -/
theorem unseen_mono {after : List Pid} (h : seen ⊆ after) : f.unseen after ≤ f.unseen seen := by
  apply List.countP_mono_left
  intro pid _ hnew
  have hafter : pid ∉ after := by simpa using hnew
  have hseen : pid ∉ seen := fun hmem => hafter (h hmem)
  simpa using hseen

/-- A process that is met is not among the others any more. -/
theorem unseen_cons_lt {pid : Pid} (hcon : f.contains pid = true) (hnew : pid ∉ seen) :
    f.unseen (pid :: seen) < f.unseen seen := by
  -- Somewhere in the list stands the process itself; in front of it and behind it, no more are left
  -- than before.
  obtain ⟨before, after, hpids⟩ := List.append_of_mem (mem_pids_iff.mpr hcon)
  have hle : ∀ pids : List Pid, (pids.countP fun q => !(pid :: seen).contains q) ≤
      pids.countP fun q => !seen.contains q := by
    intro pids
    apply List.countP_mono_left
    intro q _ hq
    simp only [List.contains_cons, Bool.not_or, Bool.and_eq_true] at hq
    exact hq.2
  have hbefore := hle before
  have hafter := hle after
  have hone : (!seen.contains pid) = true := by simpa using hnew
  have hzero : (!(pid :: seen).contains pid) = false := by simp
  rw [unseen, unseen, hpids, List.countP_append, List.countP_append, List.countP_cons,
    List.countP_cons, hone, hzero, if_pos rfl, if_neg Bool.false_ne_true]
  omega

/-! ## Subtrees -/

/-- The pids of a subtree, parents before children. -/
def subtreePids (f : Forest) (root : Pid) (include_ : Pid → Bool) : List Pid :=
  (f.subtree root include_).map (·.pid)

variable {root pid child : Pid}

theorem nodup_subtreePids (f : Forest) (root : Pid) (include_ : Pid → Bool) :
    (f.subtreePids root include_).Nodup :=
  nodup_walk f include_ f.walkBound [] [root]

/-- A subtree is made of nodes that are included. -/
theorem include_of_mem_subtreePids (h : pid ∈ f.subtreePids root include_) :
    include_ pid = true ∧ f.contains pid = true := by
  obtain ⟨node, hnode, rfl⟩ := List.mem_map.mp h
  exact ⟨(include_of_mem_walk hnode).1, contains_iff.mpr ⟨node, get?_of_mem_walk hnode⟩⟩

private theorem subtree_complete (f : Forest) (root : Pid) :
    [root].length + unmet [] f.nodes ≤ f.walkBound := by
  rw [walkBound_eq]
  exact Nat.le_refl _

/-- A subtree begins with its root. -/
theorem subtreePids_eq_cons (hroot : include_ root = true) (hcon : f.contains root = true) :
    ∃ rest, f.subtreePids root include_ = root :: rest := by
  obtain ⟨node, hnode⟩ := contains_iff.mp hcon
  refine ⟨((f.walk include_ (unmet [] f.nodes) [root] (node.children ++ [])).map (·.pid)), ?_⟩
  rw [subtreePids, subtree, walkBound_eq, Nat.add_comm, walk]
  simp [hroot, hnode, pid_of_get? hnode]

/-- **A subtree is found again** if exactly its processes are included. -/
theorem subtreePids_again (hf : f.Linked) (hcon : f.contains root = true) :
    f.subtreePids root (f.subtreePids root include_).contains = f.subtreePids root include_ := by
  have hsame : f.walk (f.subtreePids root include_).contains f.walkBound [] [root] =
      f.walk include_ f.walkBound [] [root] := by
    apply walk_restrict hf.contains_of_hasChild
    · simpa using hcon
    · intro pid hpid
      exact (include_of_mem_subtreePids (by simpa using hpid)).1
    · intro node hnode
      have hmem : node.pid ∈ f.subtreePids root include_ := List.mem_map.mpr ⟨node, hnode, rfl⟩
      simpa using hmem
  exact congrArg (List.map (·.pid)) hsame

theorem root_mem_subtreePids (hroot : include_ root = true) (hcon : f.contains root = true) :
    root ∈ f.subtreePids root include_ := by
  obtain ⟨rest, hrest⟩ := subtreePids_eq_cons hroot hcon
  rw [hrest]
  exact List.mem_cons_self ..

/-- A subtree has all children that are included. -/
theorem mem_subtreePids_of_hasChild (hpid : pid ∈ f.subtreePids root include_)
    (hchild : f.HasChild pid child) (hinclude : include_ child = true)
    (hcon : f.contains child = true) : child ∈ f.subtreePids root include_ := by
  obtain ⟨node, hnode, rfl⟩ := List.mem_map.mp hpid
  obtain ⟨same, hsame, hmem⟩ := hchild
  obtain rfl : same = node := Option.some.inj (hsame.symm.trans (get?_of_mem_walk hnode))
  exact (walk_complete (subtree_complete f root)).2 same hnode child hmem hinclude
    List.not_mem_nil hcon

end SoftwareCensus.Forest
