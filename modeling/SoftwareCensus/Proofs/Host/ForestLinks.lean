import SoftwareCensus.Host.Forest
import SoftwareCensus.Proofs.Host.PidOrder

/-!
# Parents and Children in a Forest

A forest is looked at through two views: the parent that a process was listed with, and the
children that a node lists. Every step of building a forest is described by what it does to the
views, and the views of a built forest agree, whatever the list of processes repeats, moves or
leaves out.

## Main results

* `Forest.build_linked` : the views of a built forest agree
* `Forest.attachPorts_linked` : sockets do not change the views
-/

namespace SoftwareCensus.Forest

/-- Whether a node lists a child. -/
def HasChild (f : Forest) (pid child : Pid) : Prop :=
  ∃ node, f.get? pid = some node ∧ child ∈ node.children

/-- What was never listed has the root as its parent. -/
def OrphansAtRoot (f : Forest) : Prop :=
  ∀ {pid node}, f.get? pid = some node → node.synthetic = true → node.ppid = .root

/-- What ties the nodes of a forest together. -/
structure Linked (f : Forest) : Prop where
  ascending : Pid.Ascending f.pids
  /-- A node lists exactly the processes that were listed with it as their parent. -/
  hasChild_iff : ∀ {pid child}, f.HasChild pid child ↔ f.parent? child = some pid ∧ child ≠ pid
  contains_parent : ∀ {pid child}, f.parent? child = some pid → f.contains pid = true
  orphans : f.OrphansAtRoot

/-! ## Nodes -/

/-- A node that is found at a pid carries that pid. -/
theorem pid_of_get? {f : Forest} {pid : Pid} {node : ProcessNode} (h : f.get? pid = some node) :
    node.pid = pid := by
  simpa using List.find?_some h

theorem mem_nodes_of_get? {f : Forest} {pid : Pid} {node : ProcessNode}
    (h : f.get? pid = some node) : node ∈ f.nodes :=
  List.mem_of_find?_eq_some h

/-- A forest has a node at a pid if one is found there. -/
theorem contains_iff {f : Forest} {pid : Pid} :
    f.contains pid = true ↔ ∃ node, f.get? pid = some node := by
  rw [contains, Option.isSome_iff_exists]

theorem mem_pids_iff {f : Forest} {pid : Pid} : pid ∈ f.pids ↔ f.contains pid = true := by
  simp [pids, contains, get?]

/-- A process that was listed with a parent has a node that names it. -/
theorem parent?_eq_some_iff {f : Forest} {pid parent : Pid} :
    f.parent? pid = some parent ↔
      ∃ node, f.get? pid = some node ∧ node.synthetic = false ∧ node.ppid = parent := by
  -- No node, a listed one or a placeholder: only the second has a parent to show.
  cases hget : f.get? pid with
  | none => simp [parent?, hget]
  | some node => cases hsyn : node.synthetic <;> simp [parent?, hget, hsyn]

/-- A process that another one lists as its child has a node. -/
theorem Linked.contains_of_hasChild {f : Forest} (hf : f.Linked) {pid child : Pid}
    (h : f.HasChild pid child) : f.contains child = true := by
  obtain ⟨node, hnode, -⟩ := parent?_eq_some_iff.mp (hf.hasChild_iff.mp h).1
  exact contains_iff.mpr ⟨node, hnode⟩

/-- No two nodes have one pid, so every node is the one that is found at its pid. -/
theorem Linked.get?_of_mem {f : Forest} (hf : f.Linked) {node : ProcessNode} (h : node ∈ f.nodes) :
    f.get? node.pid = some node := by
  have hcontains := mem_pids_iff.mp (List.mem_map_of_mem h)
  obtain ⟨found, hfound⟩ := contains_iff.mp hcontains
  -- The node found at the pid of `node` has the same pid, and the pids are distinct.
  have hsame : found.pid = node.pid := pid_of_get? hfound
  have hnodup : (f.nodes.map (·.pid)).Nodup := hf.ascending.nodup
  rw [hfound, List.inj_on_of_nodup_map hnodup (mem_nodes_of_get? hfound) h hsame]

/-! ## Changing a node -/

section Modify

variable {f : Forest} {pid : Pid} {change : ProcessNode → ProcessNode}

/-- Only the node at the pid is changed, provided that the change keeps its pid. -/
theorem get?_modify (hpid : ∀ node, (change node).pid = node.pid) (q : Pid) :
    (f.modify pid change).get? q =
      (f.get? q).map fun node => if q = pid then change node else node := by
  -- The search looks at pids alone, so it stops at the same node before and after the change.
  have hkeep : (fun node : ProcessNode => node.pid == q) ∘
      (fun node => if node.pid == pid then change node else node) = fun node => node.pid == q := by
    funext node
    by_cases h : node.pid = pid <;> simp [h, hpid]
  simp only [get?, modify, List.find?_map, hkeep]
  cases hget : f.nodes.find? (fun node => node.pid == q) with
  | none => rfl
  | some node =>
    have hq : node.pid = q := by simpa using List.find?_some hget
    simp [hq]

/-- A change that keeps the pid keeps the order of the nodes. -/
theorem pids_modify (hpid : ∀ node, (change node).pid = node.pid) :
    (f.modify pid change).pids = f.pids := by
  simp only [pids, modify, List.map_map]
  refine List.map_congr_left ?_
  intro node _
  by_cases h : node.pid = pid <;> simp [h, hpid]

theorem contains_modify (hpid : ∀ node, (change node).pid = node.pid) (q : Pid) :
    (f.modify pid change).contains q = f.contains q := by
  rw [contains, contains, get?_modify hpid, Option.isSome_map]

/-- A change that leaves the parent alone leaves all parents alone. -/
theorem parent?_modify (hpid : ∀ node, (change node).pid = node.pid)
    (hppid : ∀ node, (change node).ppid = node.ppid)
    (hsyn : ∀ node, (change node).synthetic = node.synthetic) (q : Pid) :
    (f.modify pid change).parent? q = f.parent? q := by
  rw [parent?, parent?, get?_modify hpid]
  cases f.get? q with
  | none => rfl
  | some node => by_cases h : q = pid <;> simp [h, hppid, hsyn]

/-- The children of the changed node are those of the change, all others stay. -/
theorem hasChild_modify (hpid : ∀ node, (change node).pid = node.pid) {q child : Pid} :
    (f.modify pid change).HasChild q child ↔
      ∃ node, f.get? q = some node ∧
        child ∈ (if q = pid then change node else node).children := by
  simp [HasChild, get?_modify hpid]

/-- A change that leaves the children alone keeps who lists whom. -/
theorem hasChild_modify_of_keeps (hpid : ∀ node, (change node).pid = node.pid)
    (hchildren : ∀ node, (change node).children = node.children) {q child : Pid} :
    (f.modify pid change).HasChild q child ↔ f.HasChild q child := by
  rw [hasChild_modify hpid, HasChild]
  by_cases h : q = pid <;> simp [h, hchildren]

theorem orphansAtRoot_modify (hpid : ∀ node, (change node).pid = node.pid)
    (hppid : ∀ node, (change node).ppid = node.ppid)
    (hsyn : ∀ node, (change node).synthetic = node.synthetic) (h : f.OrphansAtRoot) :
    (f.modify pid change).OrphansAtRoot := by
  intro q node hget hnode
  rw [get?_modify hpid, Option.map_eq_some_iff] at hget
  obtain ⟨before, hbefore, rfl⟩ := hget
  by_cases hq : q = pid
  -- The changed node: neither its parent nor its being a placeholder changes.
  · rw [if_pos hq, hsyn] at hnode
    rw [if_pos hq, hppid]
    exact h hbefore hnode
  · rw [if_neg hq] at hnode ⊢
    exact h hbefore hnode

end Modify

/-! ## Making sure of a node -/

/-- A node that is new is the one that is found at its pid. -/
private theorem find?_insertNode {node : ProcessNode} {nodes : List ProcessNode}
    (hnew : ∀ n ∈ nodes, n.pid ≠ node.pid) (q : Pid) :
    (insertNode node nodes).find? (·.pid == q) =
      if q = node.pid then some node else nodes.find? (·.pid == q) := by
  induction nodes with
  | nil =>
    by_cases h : q = node.pid
    · simp [insertNode, h]
    · simp [insertNode, h, Ne.symm h]
  | cons n rest ih =>
    -- The head is not the new node, so the two searches can only differ behind it.
    have hn : (n.pid == node.pid) = false := by simpa using hnew n (List.mem_cons_self ..)
    have hrest := ih fun m hm => hnew m (List.mem_cons_of_mem _ hm)
    rw [insertNode]
    -- The new node goes before the head, or further down.
    split
    · by_cases h : q = node.pid
      · simp [h]
      · simp [h, Ne.symm h]
    · rw [List.find?_cons, List.find?_cons, hrest]
      by_cases h : q = node.pid
      · simp [h, hn]
      · simp [h]

/-- Nodes are put where their pids are put. -/
private theorem map_insertNode {node : ProcessNode} {nodes : List ProcessNode}
    (hnew : ∀ n ∈ nodes, n.pid ≠ node.pid) :
    (insertNode node nodes).map (·.pid) = Pid.insert node.pid (nodes.map (·.pid)) := by
  induction nodes with
  | nil => rfl
  | cons n rest ih =>
    have hrest := ih fun m hm => hnew m (List.mem_cons_of_mem _ hm)
    cases hcmp : node.pid.cmp n.pid with
    | lt => simp [insertNode, Pid.insert, hcmp]
    -- The order would have two nodes with one pid, but the node is new.
    | eq => exact absurd (Pid.eq_of_cmp hcmp).symm (hnew n (List.mem_cons_self ..))
    | gt => simp [insertNode, Pid.insert, hcmp, hrest]

private theorem pid_ne_of_not_contains {f : Forest} {pid : Pid} (h : f.contains pid = false) :
    ∀ n ∈ f.nodes, n.pid ≠ (ProcessNode.placeholder pid).pid := by
  intro n hn hpid
  have hmem : pid ∈ f.pids := List.mem_map.mpr ⟨n, hn, hpid⟩
  simp [mem_pids_iff, h] at hmem

theorem get?_ensure (f : Forest) (pid q : Pid) :
    (f.ensure pid).get? q =
      if q = pid then some ((f.get? pid).getD (.placeholder pid)) else f.get? q := by
  cases hcon : f.contains pid with
  | true =>
    -- The node is there already, and nothing happens.
    obtain ⟨node, hnode⟩ := contains_iff.mp hcon
    by_cases h : q = pid <;> simp [ensure, hcon, h, hnode]
  | false =>
    -- A placeholder is inserted, the first and only node with this pid.
    have hnone : f.get? pid = none := by simpa [contains] using hcon
    rw [hnone, ensure, if_neg (by simp [hcon]), get?,
      find?_insertNode (pid_ne_of_not_contains hcon)]
    rfl

/-- A new pid goes to its place among the others. -/
theorem pids_ensure (f : Forest) (pid : Pid) :
    (f.ensure pid).pids = if f.contains pid then f.pids else Pid.insert pid f.pids := by
  cases hcon : f.contains pid with
  | true => simp [ensure, hcon]
  | false =>
    have hmap := map_insertNode (pid_ne_of_not_contains hcon)
    rw [ensure, if_neg (by simp [hcon]), if_neg (by simp)]
    exact hmap

theorem ascending_ensure {f : Forest} (h : Pid.Ascending f.pids) (pid : Pid) :
    Pid.Ascending (f.ensure pid).pids := by
  rw [pids_ensure]
  split
  · exact h
  · exact h.insert pid

/-- Afterwards there is a node at the pid, and no other node is new. -/
theorem contains_ensure (f : Forest) (pid q : Pid) :
    (f.ensure pid).contains q = true ↔ q = pid ∨ f.contains q = true := by
  rw [contains, get?_ensure]
  by_cases h : q = pid <;> simp [h, contains]

/-- A placeholder has no parent to show, so making sure of a node gives nobody a parent. -/
@[simp]
theorem parent?_ensure (f : Forest) (pid q : Pid) : (f.ensure pid).parent? q = f.parent? q := by
  rw [parent?, parent?, get?_ensure]
  by_cases h : q = pid
  · subst h
    -- The node was there, or it is a placeholder now and was nothing before.
    cases f.get? q <;> simp [ProcessNode.placeholder]
  · simp [h]

/-- A placeholder has no children. -/
@[simp]
theorem hasChild_ensure {f : Forest} {pid q child : Pid} :
    (f.ensure pid).HasChild q child ↔ f.HasChild q child := by
  rw [HasChild, HasChild, get?_ensure]
  by_cases h : q = pid
  · subst h
    cases f.get? q <;> simp [ProcessNode.placeholder]
  · simp [h]

/-- A placeholder has the root as its parent. -/
theorem orphansAtRoot_ensure {f : Forest} (h : f.OrphansAtRoot) (pid : Pid) :
    (f.ensure pid).OrphansAtRoot := by
  intro q node hget hnode
  rw [get?_ensure] at hget
  split at hget
  -- The node that was made sure of is either a new placeholder or one of the old nodes.
  · obtain rfl := Option.some.inj hget
    cases hbefore : f.get? pid with
    | none => rfl
    | some before =>
      rw [hbefore] at hnode
      exact h hbefore hnode
  · exact h hget hnode

/-! ## Steps of building -/

theorem pid_fillFrom (p : ProcessRecord) (node : ProcessNode) :
    (node.fillFrom p).pid = node.pid := rfl

theorem pid_removeChild (child : Pid) (node : ProcessNode) :
    (node.removeChild child).pid = node.pid := rfl

theorem pid_addChild (child : Pid) (node : ProcessNode) :
    (node.addChild child).pid = node.pid := by
  rw [ProcessNode.addChild]
  split <;> rfl

private theorem ppid_addChild (child : Pid) (node : ProcessNode) :
    (node.addChild child).ppid = node.ppid := by
  rw [ProcessNode.addChild]
  split <;> rfl

private theorem synthetic_addChild (child : Pid) (node : ProcessNode) :
    (node.addChild child).synthetic = node.synthetic := by
  rw [ProcessNode.addChild]
  split <;> rfl

/-- Adding a child adds that child, once. -/
theorem mem_children_addChild {node : ProcessNode} {child c : Pid} :
    c ∈ (node.addChild child).children ↔ c ∈ node.children ∨ c = child := by
  rw [ProcessNode.addChild]
  split
  case isTrue h =>
    -- The child is listed already, and adding it changes nothing.
    have hmem : child ∈ node.children := by simpa using h
    constructor
    · exact Or.inl
    · rintro (hc | rfl)
      · exact hc
      · exact hmem
  case isFalse => simp

section Place

variable (f : Forest) (p : ProcessRecord)

/-- The data of a process lie at its pid. -/
theorem get?_place (q : Pid) :
    (f.place p).get? q =
      if q = p.pid then some (((f.get? p.pid).getD (.placeholder p.pid)).fillFrom p)
      else f.get? q := by
  -- First there is a node at the pid, then it takes the data of the process.
  rw [place, get?_modify (pid_fillFrom p), get?_ensure]
  by_cases h : q = p.pid <;> simp [h]

/-- The process has the parent it was listed with, and no other parent changes. -/
@[simp]
theorem parent?_place (q : Pid) :
    (f.place p).parent? q = if q = p.pid then some p.ppid else f.parent? q := by
  rw [parent?, get?_place]
  by_cases h : q = p.pid <;> simp [h, ProcessNode.fillFrom, parent?]

@[simp]
theorem hasChild_place {q child : Pid} : (f.place p).HasChild q child ↔ f.HasChild q child := by
  rw [place, hasChild_modify_of_keeps (pid_fillFrom p) fun _ => rfl, hasChild_ensure]

theorem contains_place (q : Pid) :
    (f.place p).contains q = true ↔ q = p.pid ∨ f.contains q = true := by
  rw [place, contains_modify (pid_fillFrom p), contains_ensure]

/-- A process that was listed is no placeholder any more. -/
theorem orphansAtRoot_place (h : f.OrphansAtRoot) : (f.place p).OrphansAtRoot := by
  intro q node hget hnode
  rw [get?_place] at hget
  split at hget
  -- The filled node is not synthetic.
  · obtain rfl := Option.some.inj hget
    cases hnode
  · exact h hget hnode

theorem pids_place : (f.place p).pids = (f.ensure p.pid).pids := pids_modify (pid_fillFrom p)

end Place

section Leave

variable (f : Forest) (p : ProcessRecord) (earlier : Option Pid)

/-- A process leaves no parent, or one parent, which is not its new one. -/
theorem leave_cases :
    f.leave p earlier = f ∧ (∀ parent, earlier = some parent → parent = p.ppid) ∨
      ∃ parent, earlier = some parent ∧ parent ≠ p.ppid ∧
        f.leave p earlier = f.modify parent (·.removeChild p.pid) := by
  cases earlier with
  -- It was not listed before.
  | none => exact Or.inl ⟨rfl, by simp⟩
  | some parent =>
    -- It was listed before, under the parent it has now or under another one.
    by_cases h : parent = p.ppid
    · exact Or.inl ⟨by simp [leave, h], by simp [h]⟩
    · exact Or.inr ⟨parent, rfl, h, by simp [leave, h]⟩

@[simp]
theorem parent?_leave (q : Pid) : (f.leave p earlier).parent? q = f.parent? q := by
  rcases leave_cases f p earlier with ⟨hsame, -⟩ | ⟨parent, -, -, hleave⟩
  · rw [hsame]
  · rw [hleave, parent?_modify (pid_removeChild p.pid) (fun _ => rfl) fun _ => rfl]

theorem pids_leave : (f.leave p earlier).pids = f.pids := by
  rcases leave_cases f p earlier with ⟨hsame, -⟩ | ⟨parent, -, -, hleave⟩
  · rw [hsame]
  · rw [hleave, pids_modify (pid_removeChild p.pid)]

@[simp]
theorem contains_leave (q : Pid) : (f.leave p earlier).contains q = f.contains q := by
  rw [Bool.eq_iff_iff, ← mem_pids_iff, ← mem_pids_iff, pids_leave]

/-- The process is gone from the children of the parent that it leaves. -/
theorem hasChild_leave {q child : Pid} :
    (f.leave p earlier).HasChild q child ↔
      f.HasChild q child ∧ ¬ (child = p.pid ∧ earlier = some q ∧ q ≠ p.ppid) := by
  rcases leave_cases f p earlier with ⟨hsame, hstay⟩ | ⟨parent, hearlier, hne, hleave⟩
  · rw [hsame]
    -- Nothing was left: the one excluded case needs an earlier parent other than the new one.
    refine ⟨fun h => ⟨h, ?_⟩, And.left⟩
    rintro ⟨-, hq, hne⟩
    exact hne (hstay q hq)
  -- The process leaves `parent`: it is filtered from that node, all other nodes stay.
  · rw [hleave, hasChild_modify (pid_removeChild p.pid), hearlier]
    by_cases hq : q = parent
    · subst hq
      simp only [if_true, ProcessNode.removeChild, List.mem_filter, HasChild, bne_iff_ne]
      constructor
      · rintro ⟨node, hnode, hmem, hchild⟩
        exact ⟨⟨node, hnode, hmem⟩, fun h => hchild h.1⟩
      · rintro ⟨⟨node, hnode, hmem⟩, h⟩
        exact ⟨node, hnode, hmem, fun hchild => h ⟨hchild, trivial, hne⟩⟩
    · simp [hq, Ne.symm hq, HasChild]

theorem orphansAtRoot_leave (h : f.OrphansAtRoot) : (f.leave p earlier).OrphansAtRoot := by
  rcases leave_cases f p earlier with ⟨hsame, -⟩ | ⟨parent, -, -, hleave⟩
  · rw [hsame]
    exact h
  -- A node that loses a child keeps its own parent.
  · rw [hleave]
    exact orphansAtRoot_modify (pid_removeChild p.pid) (fun _ => rfl) (fun _ => rfl) h

end Leave

section Join

variable (f : Forest) (p : ProcessRecord)

/-- A process joins nothing if it is its own parent. -/
theorem join_cases :
    f.join p = f ∧ p.ppid = p.pid ∨
      p.ppid ≠ p.pid ∧ f.join p = (f.ensure p.ppid).modify p.ppid (·.addChild p.pid) := by
  by_cases h : p.ppid = p.pid
  · exact Or.inl ⟨by simp [join, h], h⟩
  · exact Or.inr ⟨h, by simp [join, h]⟩

@[simp]
theorem parent?_join (q : Pid) : (f.join p).parent? q = f.parent? q := by
  rcases join_cases f p with ⟨hsame, -⟩ | ⟨-, hjoin⟩
  · rw [hsame]
  · rw [hjoin, parent?_modify (pid_addChild p.pid) (ppid_addChild p.pid)
      (synthetic_addChild p.pid), parent?_ensure]

/-- The parent of the process has a node afterwards. -/
theorem contains_join (q : Pid) :
    (f.join p).contains q = true ↔ f.contains q = true ∨ q = p.ppid ∧ p.ppid ≠ p.pid := by
  rcases join_cases f p with ⟨hsame, hself⟩ | ⟨hne, hjoin⟩
  · simp [hsame, hself]
  · rw [hjoin, contains_modify (pid_addChild p.pid), contains_ensure]
    simp [hne, or_comm]

theorem ascending_join (h : Pid.Ascending f.pids) : Pid.Ascending (f.join p).pids := by
  rcases join_cases f p with ⟨hsame, -⟩ | ⟨-, hjoin⟩
  · rw [hsame]
    exact h
  · rw [hjoin, pids_modify (pid_addChild p.pid)]
    exact ascending_ensure h p.ppid

/-- The process is among the children of its parent. -/
theorem hasChild_join {q child : Pid} :
    (f.join p).HasChild q child ↔
      f.HasChild q child ∨ child = p.pid ∧ q = p.ppid ∧ p.ppid ≠ p.pid := by
  rcases join_cases f p with ⟨hsame, hself⟩ | ⟨hne, hjoin⟩
  · simp [hsame, hself]
  · rw [hjoin, hasChild_modify (pid_addChild p.pid)]
    by_cases hq : q = p.ppid
    -- At the parent, which may be a placeholder that this step has made.
    · subst hq
      have hget : (f.ensure p.ppid).get? p.ppid =
          some ((f.get? p.ppid).getD (.placeholder p.ppid)) := by simp [get?_ensure]
      -- What the node listed before, with no children for a placeholder.
      have hbefore : f.HasChild p.ppid child ↔
          child ∈ ((f.get? p.ppid).getD (.placeholder p.ppid)).children := by
        rw [← hasChild_ensure, HasChild, hget]
        simp
      rw [hbefore, hget]
      simp [mem_children_addChild, hne]
    -- At any other node the children are those of before.
    · simp only [hq, if_false, false_and, and_false, or_false]
      exact hasChild_ensure

theorem orphansAtRoot_join (h : f.OrphansAtRoot) : (f.join p).OrphansAtRoot := by
  rcases join_cases f p with ⟨hsame, -⟩ | ⟨-, hjoin⟩
  · rw [hsame]
    exact h
  · rw [hjoin]
    exact orphansAtRoot_modify (pid_addChild p.pid) (ppid_addChild p.pid)
      (synthetic_addChild p.pid) (orphansAtRoot_ensure h p.ppid)

end Join

/-! ## Adding a process -/

section Add

variable {f : Forest} (p : ProcessRecord)

/-- After the three steps the process has its new parent, and no other parent changes. -/
theorem parent?_add (q : Pid) :
    (f.add p).parent? q = if q = p.pid then some p.ppid else f.parent? q := by
  simp [add]

/-- A process brings its own node and that of its parent. -/
theorem contains_add (q : Pid) :
    (f.add p).contains q = true ↔ f.contains q = true ∨ q = p.pid ∨ q = p.ppid := by
  rw [add, contains_join, contains_leave, contains_place]
  by_cases h : p.ppid = p.pid
  -- A process that is its own parent brings one node.
  · simp [h, or_comm]
  · simp only [h, ne_eq, not_false_eq_true, and_true]
    rw [or_comm (a := q = p.pid), or_assoc]

theorem ascending_add (h : Pid.Ascending f.pids) : Pid.Ascending (f.add p).pids := by
  refine ascending_join _ p ?_
  -- Leaving keeps the pids, and placing and joining insert theirs in order.
  rw [pids_leave, pids_place]
  exact ascending_ensure h p.pid

/-- Adding a process puts it under its parent and nowhere else, and moves no other process. -/
theorem hasChild_add (hf : f.Linked) {q child : Pid} :
    (f.add p).HasChild q child ↔
      if child = p.pid then q = p.ppid ∧ child ≠ q else f.HasChild q child := by
  rw [add, hasChild_join, hasChild_leave, hasChild_place]
  -- Only the added process moves, and it moves to its parent unless it is its own parent.
  by_cases hchild : child = p.pid
  · subst hchild
    rw [if_pos rfl, hf.hasChild_iff]
    by_cases hq : q = p.ppid
    · subst hq
      simp only [ne_eq, not_true_eq_false, and_false, not_false_eq_true, and_true, true_and]
      exact ⟨fun h => h.elim And.right Ne.symm, fun h => Or.inr (Ne.symm h)⟩
    · -- The process was under `q` only as long as `q` was its parent, and has left it.
      simp only [hq, false_and, and_false, or_false, iff_false]
      rintro ⟨⟨hparent, -⟩, hstay⟩
      exact hstay ⟨trivial, hparent, hq⟩
  · simp [hchild]

/-- Adding a process keeps a forest linked. -/
theorem add_linked (hf : f.Linked) : (f.add p).Linked where
  ascending := ascending_add p hf.ascending
  hasChild_iff {q child} := by
    rw [hasChild_add p hf, parent?_add]
    -- For the added process both views say its new parent, for the others they say what they said.
    by_cases hchild : child = p.pid
    · simp [hchild, eq_comm]
    · simp only [if_neg hchild]
      exact hf.hasChild_iff
  contains_parent {q child} h := by
    rw [contains_add]
    rw [parent?_add] at h
    split at h
    · exact Or.inr (Or.inr (Option.some.inj h).symm)
    · exact Or.inl (hf.contains_parent h)
  orphans := orphansAtRoot_join _ p (orphansAtRoot_leave _ p _ (orphansAtRoot_place _ p hf.orphans))

end Add

/-! ## Built forests -/

/-- With no nodes there is nothing to disagree on. -/
theorem empty_linked : Linked {} where
  ascending := List.Pairwise.nil
  hasChild_iff := by simp [HasChild, parent?, get?]
  contains_parent h := by simp [parent?, get?] at h
  orphans {pid node} h := by simp [get?] at h

private theorem foldl_add_linked (processes : List ProcessRecord) {f : Forest} (hf : f.Linked) :
    (processes.foldl add f).Linked := by
  -- By induction on the processes, over all linked forests that they may be added to.
  induction processes generalizing f with
  | nil => exact hf
  | cons p rest ih => exact ih (add_linked p hf)

/-- **The views of a built forest agree**, whatever the list of processes is. -/
theorem build_linked (processes : List ProcessRecord) : (build processes).Linked :=
  foldl_add_linked processes empty_linked

/-! ## Sockets -/

theorem pid_attachPort (r : PortRecord) (node : ProcessNode) :
    (node.attachPort r).pid = node.pid := rfl

private theorem attachPort_linked (r : PortRecord) {f : Forest} (hf : f.Linked) :
    (f.modify r.pid (·.attachPort r)).Linked where
  -- The change touches the ports of one node, and no view looks at ports.
  ascending := by
    rw [pids_modify (pid_attachPort r)]
    exact hf.ascending
  hasChild_iff {q child} := by
    rw [hasChild_modify_of_keeps (pid_attachPort r) fun _ => rfl,
      parent?_modify (pid_attachPort r) (fun _ => rfl) fun _ => rfl]
    exact hf.hasChild_iff
  contains_parent {q child} h := by
    rw [parent?_modify (pid_attachPort r) (fun _ => rfl) fun _ => rfl] at h
    rw [contains_modify (pid_attachPort r)]
    exact hf.contains_parent h
  orphans := orphansAtRoot_modify (pid_attachPort r) (fun _ => rfl) (fun _ => rfl) hf.orphans

/-- Sockets change neither parents nor children. -/
theorem attachPorts_linked (records : List PortRecord) {f : Forest} (hf : f.Linked) :
    (f.attachPorts records).Linked := by
  induction records generalizing f with
  | nil => exact hf
  | cons r rest ih => exact ih (attachPort_linked r hf)

/-- Sockets bring no nodes and move none. -/
@[simp]
theorem pids_attachPorts (records : List PortRecord) (f : Forest) :
    (f.attachPorts records).pids = f.pids := by
  induction records generalizing f with
  | nil => rfl
  | cons r rest ih => exact (ih _).trans (pids_modify (pid_attachPort r))

end SoftwareCensus.Forest
