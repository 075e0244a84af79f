import SoftwareCensus.Proofs.Host.ListingOrder

/-!
# Forests and their Records

A built forest is a picture of the list of processes that it was built from, whatever the list
repeats, moves or leaves out. Two kinds of facts are carried through the steps of building: what
holds of every single node, and how the list of children of one node grows.

## Main results

* `Forest.Lasting.build` : what holds of blank nodes and is never taken away holds of all nodes
* `Forest.childrenAt_build` : children come in the order of a list without repetitions
* `Forest.build_depicts` : a built forest depicts its list of processes
-/

namespace SoftwareCensus.Forest

variable {f : Forest}

/-! ## Properties of single nodes -/

/-- A property that blank nodes have and that no step of building takes away. -/
structure Lasting (P : ProcessNode → Prop) : Prop where
  placeholder : ∀ pid, P (.placeholder pid)
  fillFrom : ∀ node p, P node → P (node.fillFrom p)
  removeChild : ∀ node child, P node → P (node.removeChild child)
  addChild : ∀ node child, P node → P (node.addChild child)

/-- Whether all nodes of a forest have a property. -/
def AllNodes (f : Forest) (P : ProcessNode → Prop) : Prop :=
  ∀ pid node, f.get? pid = some node → P node

section AllNodes

variable {P : ProcessNode → Prop}

theorem AllNodes.modify {change : ProcessNode → ProcessNode} (h : f.AllNodes P)
    (hpid : ∀ node, (change node).pid = node.pid) (hchange : ∀ node, P node → P (change node))
    (pid : Pid) : (f.modify pid change).AllNodes P := by
  intro q node hnode
  rw [get?_modify hpid, Option.map_eq_some_iff] at hnode
  obtain ⟨before, hbefore, rfl⟩ := hnode
  -- The node was changed, or is another one.
  split
  · exact hchange before (h q before hbefore)
  · exact h q before hbefore

theorem AllNodes.ensure (h : f.AllNodes P) (hblank : ∀ pid, P (.placeholder pid)) (pid : Pid) :
    (f.ensure pid).AllNodes P := by
  intro q node hnode
  rw [get?_ensure] at hnode
  -- The pid asked for has a node by now, its own one or a blank one.
  split at hnode
  · obtain rfl := Option.some.inj hnode
    cases hbefore : f.get? pid with
    | none => exact hblank pid
    | some before => exact h pid before hbefore
  · exact h q node hnode

/-- One step of building. -/
theorem Lasting.add (hP : Lasting P) (h : f.AllNodes P) (p : ProcessRecord) :
    (f.add p).AllNodes P := by
  -- The three parts of a step: the record is put in place, the old parent is left, the new one is
  -- joined.
  have hplace : (f.place p).AllNodes P :=
    (h.ensure hP.placeholder p.pid).modify (pid_fillFrom p) (fun node => hP.fillFrom node p) p.pid
  have hleave : ((f.place p).leave p (f.parent? p.pid)).AllNodes P := by
    rcases leave_cases (f.place p) p (f.parent? p.pid) with ⟨hsame, -⟩ | ⟨parent, -, -, hleave⟩
    · rw [hsame]
      exact hplace
    · rw [hleave]
      exact hplace.modify (pid_removeChild p.pid) (fun node => hP.removeChild node p.pid) parent
  rw [Forest.add]
  rcases join_cases ((f.place p).leave p (f.parent? p.pid)) p with ⟨hsame, -⟩ | ⟨-, hjoin⟩
  · rw [hsame]
    exact hleave
  · rw [hjoin]
    exact (hleave.ensure hP.placeholder p.ppid).modify (pid_addChild p.pid)
      (fun node => hP.addChild node p.pid) p.ppid

/-- What holds of blank nodes and is never taken away holds of all nodes of a built forest. -/
theorem Lasting.build (hP : Lasting P) (processes : List ProcessRecord) :
    (build processes).AllNodes P := by
  have hfold : ∀ f : Forest, f.AllNodes P → (processes.foldl Forest.add f).AllNodes P := by
    induction processes with
    | nil => exact fun _ h => h
    | cons p rest ih => exact fun f h => ih (f.add p) (hP.add h p)
  -- The empty forest has no nodes.
  apply hfold
  intro pid node hnode
  simp [get?] at hnode

end AllNodes

/-- No child is listed twice: a child is only added where it is missing. -/
theorem lasting_nodup_children : Lasting fun node => node.children.Nodup where
  placeholder _ := List.nodup_nil
  fillFrom _ _ h := h
  removeChild _ _ h := h.filter _
  addChild node child h := by
    rw [ProcessNode.addChild]
    split
    case isTrue => exact h
    case isFalse hnew =>
      have hchild : child ∉ node.children := by simpa using hnew
      show (node.children ++ [child]).Nodup
      rw [← List.concat_eq_append]
      exact h.concat hchild

/-- Building attaches no sockets. -/
theorem lasting_no_sockets : Lasting fun node => node.ports = [] ∧ node.portRecords = [] where
  placeholder _ := ⟨rfl, rfl⟩
  fillFrom _ _ h := h
  removeChild _ _ h := h
  addChild node child h := by
    rw [ProcessNode.addChild]
    split
    · exact h
    · exact h

/-! ## The order of children -/

/-- The children that the node of a pid lists, if it has a node. -/
def childrenAt (f : Forest) (pid : Pid) : List Pid := ((f.get? pid).map (·.children)).getD []

theorem childrenAt_of_get? {pid : Pid} {node : ProcessNode} (h : f.get? pid = some node) :
    f.childrenAt pid = node.children := by
  rw [childrenAt, h]
  rfl

theorem mem_childrenAt {pid child : Pid} : child ∈ f.childrenAt pid ↔ f.HasChild pid child := by
  cases hnode : f.get? pid <;> simp [childrenAt, HasChild, hnode]

theorem childrenAt_ensure (f : Forest) (pid q : Pid) :
    (f.ensure pid).childrenAt q = f.childrenAt q := by
  rw [childrenAt, childrenAt, get?_ensure]
  by_cases h : q = pid
  · subst h
    cases f.get? q <;> simp [ProcessNode.placeholder]
  · simp [h]

theorem childrenAt_place (f : Forest) (p : ProcessRecord) (q : Pid) :
    (f.place p).childrenAt q = f.childrenAt q := by
  rw [← childrenAt_ensure f p.pid q, childrenAt, childrenAt, place, get?_modify (pid_fillFrom p),
    Option.map_map]
  congr 2
  funext node
  by_cases h : q = p.pid <;> simp [h, ProcessNode.fillFrom]

/-- A process that its parent does not list yet comes behind the other children. -/
theorem childrenAt_join {p : ProcessRecord} (hnew : ¬ f.HasChild p.ppid p.pid) (q : Pid) :
    (f.join p).childrenAt q =
      f.childrenAt q ++ if p.ppid = q ∧ p.pid ≠ q then [p.pid] else [] := by
  -- A process that is its own parent joins nothing.
  rcases join_cases f p with ⟨hsame, hself⟩ | ⟨hne, hjoin⟩
  · have hno : ¬ (p.ppid = q ∧ p.pid ≠ q) := fun h => h.2 (hself.symm.trans h.1)
    rw [hsame, if_neg hno, List.append_nil]
  · rw [hjoin, ← childrenAt_ensure f p.ppid q, childrenAt, get?_modify (pid_addChild p.pid)]
    by_cases hq : q = p.ppid
    · subst hq
      -- The parent has a node by now, and that node lists what it listed before.
      have hget : (f.ensure p.ppid).get? p.ppid =
          some ((f.get? p.ppid).getD (.placeholder p.ppid)) := by rw [get?_ensure, if_pos rfl]
      rw [← mem_childrenAt, ← childrenAt_ensure f p.ppid, childrenAt_of_get? hget] at hnew
      rw [childrenAt_of_get? hget, hget, if_pos ⟨rfl, Ne.symm hne⟩]
      simp [ProcessNode.addChild, hnew]
    · have hno : ¬ (p.ppid = q ∧ p.pid ≠ q) := fun h => hq h.1.symm
      simp [hq, hno, childrenAt]

/-- A process that was not listed before leaves no parent, so it only joins one. -/
theorem childrenAt_add (hf : f.Linked) {p : ProcessRecord} (hnew : f.parent? p.pid = none)
    (q : Pid) :
    (f.add p).childrenAt q =
      f.childrenAt q ++ if p.ppid = q ∧ p.pid ≠ q then [p.pid] else [] := by
  have hchild : ¬ (f.place p).HasChild p.ppid p.pid := by
    rw [hasChild_place, hf.hasChild_iff, hnew]
    simp
  rw [add, hnew, leave, childrenAt_join hchild, childrenAt_place]

/-- Processes that were not listed before come behind the children in the order of their list. -/
theorem childrenAt_foldl_add (processes : List ProcessRecord) (hf : f.Linked)
    (hdistinct : (processes.map (·.pid)).Nodup)
    (hnew : ∀ p ∈ processes, f.parent? p.pid = none) (q : Pid) :
    (processes.foldl add f).childrenAt q =
      f.childrenAt q ++ (processes.filter fun p => p.ppid == q && p.pid != q).map (·.pid) := by
  induction processes generalizing f with
  | nil => simp
  | cons p rest ih =>
    rw [List.map_cons, List.nodup_cons] at hdistinct
    obtain ⟨hp, hrest⟩ := List.forall_mem_cons.mp hnew
    -- The pids are distinct, so none of the others was listed by this step.
    have hstill : ∀ r ∈ rest, (f.add p).parent? r.pid = none := by
      intro r hr
      have hne : r.pid ≠ p.pid := fun h => hdistinct.1 (List.mem_map.mpr ⟨r, hr, h⟩)
      rw [parent?_add, if_neg hne]
      exact hrest r hr
    rw [List.foldl_cons, ih (add_linked p hf) hdistinct.2 hstill, childrenAt_add hf hp,
      List.append_assoc, List.filter_cons]
    -- The process is a child that is looked for, or not; the filter says the same.
    by_cases h : p.ppid = q ∧ p.pid ≠ q
    · simp [h]
    · have hfilter : (p.ppid == q && p.pid != q) = false := by
        rw [Bool.eq_false_iff]
        simpa using h
      rw [if_neg h, hfilter]
      rfl

/-- Children come in the order of a list without repetitions. -/
theorem childrenAt_build {processes : List ProcessRecord}
    (hdistinct : (processes.map (·.pid)).Nodup) (q : Pid) :
    (build processes).childrenAt q =
      (processes.filter fun p => p.ppid == q && p.pid != q).map (·.pid) := by
  refine (childrenAt_foldl_add processes empty_linked hdistinct ?_ q).trans (List.nil_append _)
  intro p _
  rfl

/-! ## What a forest depicts -/

theorem contains_foldl_add (processes : List ProcessRecord) (f : Forest) (pid : Pid) :
    (processes.foldl add f).contains pid = true ↔
      f.contains pid = true ∨ ∃ p ∈ processes, pid = p.pid ∨ pid = p.ppid := by
  induction processes generalizing f with
  | nil => simp
  | cons p rest ih =>
    rw [List.foldl_cons, ih, contains_add, or_assoc]
    simp only [List.mem_cons, exists_eq_or_imp]

/-- The forest of a list of processes. -/
structure Depicts (f : Forest) (processes : List ProcessRecord) : Prop where
  /-- Every node has a pid of its own. -/
  ascending : Pid.Ascending f.pids
  mem_pids_iff : ∀ pid, pid ∈ f.pids ↔ ∃ p ∈ processes, pid = p.pid ∨ pid = p.ppid
  /-- What is synthetic was only named as a parent. -/
  listed_iff : ∀ pid node, f.get? pid = some node →
    (node.synthetic = false ↔ ∃ p ∈ processes, p.pid = pid)
  /-- Of the records of a process the last one counts. -/
  last : ∀ before p after, processes = before ++ p :: after → (∀ r ∈ after, r.pid ≠ p.pid) →
    ∃ node, f.get? p.pid = some node ∧ node.synthetic = false ∧ node.ppid = p.ppid ∧
      node.cmdline = p.cmdline ∧ node.cwd = p.cwd ∧ node.user = p.user ∧ node.extra = p.extra
  blank : ∀ pid node, f.get? pid = some node → node.synthetic = true →
    node.ppid = ⟨"0"⟩ ∧ node.cmdline = "" ∧ node.cwd = none ∧ node.user = none ∧
      node.extra = [] ∧ node.ports = [] ∧ node.portRecords = []
  children_nodup : ∀ pid node, f.get? pid = some node → node.children.Nodup
  mem_children_iff : ∀ pid node child, f.get? pid = some node →
    (child ∈ node.children ↔
      (∃ own, f.get? child = some own ∧ own.synthetic = false ∧ own.ppid = pid) ∧ child ≠ pid)
  /-- The order of children is that of the list, if it has no process twice. -/
  children_eq : (processes.map (·.pid)).Nodup → ∀ pid node, f.get? pid = some node →
    node.children = (processes.filter fun p => p.ppid == pid && p.pid != pid).map (·.pid)

/-- A process that was listed has a last record. -/
theorem exists_last_record {processes : List ProcessRecord} {pid : Pid}
    (h : pid ∈ processes.map (·.pid)) :
    ∃ before p after, processes = before ++ p :: after ∧ p.pid = pid ∧
      p.pid ∉ after.map (·.pid) := by
  obtain ⟨p, hp, rfl⟩ := List.mem_map.mp h
  -- The records are searched from the back.
  cases hfound : processes.reverse.find? (·.pid == p.pid) with
  | none =>
    have hno := List.find?_eq_none.mp hfound p (List.mem_reverse.mpr hp)
    exact absurd (beq_self_eq_true p.pid) hno
  | some last =>
    obtain ⟨hlast, after, before, hsplit, hafter⟩ := List.find?_eq_some_iff_append.mp hfound
    have hpid : last.pid = p.pid := by simpa using hlast
    -- What the search met behind the record has other pids.
    refine ⟨before.reverse, last, after.reverse, ?_, hpid, ?_⟩
    · rw [← List.reverse_reverse processes, hsplit]
      simp
    · intro hmem
      obtain ⟨r, hr, hsame⟩ := List.mem_map.mp hmem
      have hother := hafter r (List.mem_reverse.mp hr)
      simp [hsame, hpid] at hother

/-- A node tells the last record of a process that was listed, and nothing of any other one. -/
theorem told_cases {processes : List ProcessRecord} {pid : Pid} {node : ProcessNode}
    (hnode : (build processes).get? pid = some node) :
    pid ∈ processes.map (·.pid) ∧ node.synthetic = false ∨
      pid ∉ processes.map (·.pid) ∧ node.told = blank pid := by
  have hknown : (build processes).told? pid = some node.told := by rw [told?, hnode, Option.map_some]
  -- A process that was listed has a last record, and that is what its node tells.
  by_cases hpid : pid ∈ processes.map (·.pid)
  · obtain ⟨before, p, after, rfl, rfl, hlast⟩ := exists_last_record hpid
    rw [told?_build_of_mem hlast] at hknown
    exact Or.inl ⟨hpid, (congrArg Prod.fst (Option.some.inj hknown)).symm⟩
  · rw [told?_build_of_not_mem hpid] at hknown
    split at hknown
    · exact Or.inr ⟨hpid, (Option.some.inj hknown).symm⟩
    · cases hknown

/-- **A built forest depicts its list of processes**, whatever the list repeats, moves or leaves
out. -/
theorem build_depicts (processes : List ProcessRecord) :
    (build processes).Depicts processes where
  ascending := (build_linked processes).ascending
  mem_pids_iff pid := by
    rw [Forest.mem_pids_iff, build, contains_foldl_add]
    simp [contains, get?]
  listed_iff pid node hnode := by
    rw [← List.mem_map (f := fun p : ProcessRecord => p.pid)]
    rcases told_cases hnode with ⟨hlisted, hnot⟩ | ⟨hunlisted, hblank⟩
    · exact iff_of_true hnot hlisted
    · have hsynthetic : node.synthetic = true := congrArg Prod.fst hblank
      exact iff_of_false (by simp [hsynthetic]) hunlisted
  last before p after hsplit hlast := by
    have hnot : p.pid ∉ after.map (·.pid) := by simpa using hlast
    have htold : (build processes).told? p.pid = some (false, p) := by
      rw [hsplit]
      exact told?_build_of_mem hnot
    rw [told?, Option.map_eq_some_iff] at htold
    obtain ⟨node, hnode, hknown⟩ := htold
    have hrecord : node.record = p := congrArg Prod.snd hknown
    exact ⟨node, hnode, congrArg Prod.fst hknown, congrArg (·.ppid) hrecord,
      congrArg (·.cmdline) hrecord, congrArg (·.cwd) hrecord, congrArg (·.user) hrecord,
      congrArg (·.extra) hrecord⟩
  blank pid node hnode hsynthetic := by
    rcases told_cases hnode with ⟨-, hnot⟩ | ⟨-, hblank⟩
    · rw [hsynthetic] at hnot
      cases hnot
    · have hrecord : node.record = (ProcessNode.placeholder pid).record := congrArg Prod.snd hblank
      exact ⟨congrArg (·.ppid) hrecord, congrArg (·.cmdline) hrecord, congrArg (·.cwd) hrecord,
        congrArg (·.user) hrecord, congrArg (·.extra) hrecord,
        lasting_no_sockets.build processes pid node hnode⟩
  children_nodup := lasting_nodup_children.build processes
  mem_children_iff pid node child hnode := by
    rw [← childrenAt_of_get? hnode, mem_childrenAt, (build_linked processes).hasChild_iff,
      parent?_eq_some_iff]
  children_eq hdistinct pid node hnode := by
    rw [← childrenAt_of_get? hnode]
    exact childrenAt_build hdistinct pid

/-- A process that is listed again moves; parents that are only named stay without data. -/
example :
    ((build [{ pid := ⟨"5"⟩, ppid := ⟨"1"⟩ }, { pid := ⟨"5"⟩, ppid := ⟨"2"⟩ }]).nodes.map
      fun node => (node.pid.text, node.synthetic, node.children.map (·.text))) =
      [("1", true, []), ("2", true, ["5"]), ("5", false, [])] := by
  decide

end SoftwareCensus.Forest
