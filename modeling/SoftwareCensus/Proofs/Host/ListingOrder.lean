import SoftwareCensus.Proofs.Host.ForestWalk

/-!
# Forests and the Order of Listing

What a forest knows about a process, apart from its children and its sockets, is a third view beside
the two of `ForestLinks`. A process is known as it was listed last, and a process that is only named
as a parent is a blank. So lists that differ only in their order give forests that are alike: they
have the same processes, which know the same and have the same children, in another order.

## Main results

* `Forest.told?_build_of_mem`, `Forest.told?_build_of_not_mem` : what a built forest knows
* `Forest.build_alike` : the order of a list without repetitions does not matter
* `Forest.Alike.subtreePids_perm` : forests that are alike have the same subtrees
-/

namespace SoftwareCensus

/-- What a node tells about its process. -/
def ProcessNode.record (node : ProcessNode) : ProcessRecord :=
  { pid := node.pid, ppid := node.ppid, cmdline := node.cmdline, cwd := node.cwd,
    user := node.user, extra := node.extra }

/-- What is known about a process: whether it was never listed, and its record. -/
def ProcessNode.told (node : ProcessNode) : Bool × ProcessRecord := (node.synthetic, node.record)

namespace Forest

/-- What is known about the process of a pid, if it has a node. -/
def told? (f : Forest) (pid : Pid) : Option (Bool × ProcessRecord) := (f.get? pid).map (·.told)

/-- What is known about a process that is only named as a parent. -/
def blank (pid : Pid) : Bool × ProcessRecord := (ProcessNode.placeholder pid).told

/-- Forests with the same processes, which know the same and have the same children. -/
structure Alike (f g : Forest) : Prop where
  pids_eq : f.pids = g.pids
  told_eq : ∀ pid, f.told? pid = g.told? pid
  hasChild_iff : ∀ {pid child}, f.HasChild pid child ↔ g.HasChild pid child

variable {f g : Forest}

/-- Something is known about what has a node. -/
theorem isSome_told? (f : Forest) (pid : Pid) : (f.told? pid).isSome = f.contains pid := by
  rw [told?, contains, Option.isSome_map]

/-- The parent of a process is in what is known about it. -/
theorem parent?_eq_told? (f : Forest) (pid : Pid) :
    f.parent? pid = (f.told? pid).bind fun told => if told.1 then none else some told.2.ppid := by
  rw [parent?, told?, Option.bind_map]
  rfl

/-! ## Steps of building -/

/-- A change of children or sockets changes nothing that is known. -/
theorem told?_modify {change : ProcessNode → ProcessNode}
    (hkeep : ∀ node, (change node).told = node.told) (pid q : Pid) :
    (f.modify pid change).told? q = f.told? q := by
  -- The pid is part of what is known, so the change keeps it.
  have hpid : ∀ node, (change node).pid = node.pid :=
    fun node => congrArg (fun told => told.2.pid) (hkeep node)
  rw [told?, told?, get?_modify hpid, Option.map_map]
  refine Option.map_congr ?_
  intro node _
  by_cases h : q = pid
  · simp [h, hkeep]
  · simp [h]

/-- Making sure of a node makes a blank known where nothing was. -/
theorem told?_ensure (f : Forest) (pid q : Pid) :
    (f.ensure pid).told? q =
      if q = pid then some ((f.told? pid).getD (blank pid)) else f.told? q := by
  rw [told?, get?_ensure]
  by_cases h : q = pid
  · cases hget : f.get? pid <;> simp [h, hget, told?, blank]
  · simp [h, told?]

/-- A process that is placed is known as it was listed. -/
theorem told?_place (f : Forest) (p : ProcessRecord) (q : Pid) :
    (f.place p).told? q = if q = p.pid then some (false, p) else f.told? q := by
  rw [told?, get?_place]
  by_cases h : q = p.pid
  -- The data are filled into a node of this pid, an old one or a placeholder.
  · have hpid : ((f.get? p.pid).getD (.placeholder p.pid)).pid = p.pid := by
      cases hget : f.get? p.pid with
      | none => rfl
      | some node => exact pid_of_get? hget
    simp [h, ProcessNode.told, ProcessNode.record, ProcessNode.fillFrom, hpid]
  · simp [h, told?]

private theorem told_removeChild (child : Pid) (node : ProcessNode) :
    (node.removeChild child).told = node.told := rfl

private theorem told_addChild (child : Pid) (node : ProcessNode) :
    (node.addChild child).told = node.told := by
  rw [ProcessNode.addChild]
  split <;> rfl

/-- Leaving a parent changes nothing that is known. -/
theorem told?_leave (f : Forest) (p : ProcessRecord) (earlier : Option Pid) (q : Pid) :
    (f.leave p earlier).told? q = f.told? q := by
  rcases leave_cases f p earlier with ⟨hsame, -⟩ | ⟨parent, -, -, hleave⟩
  · rw [hsame]
  · rw [hleave, told?_modify (told_removeChild p.pid)]

/-- A parent is known as before, and as a blank if it is new. -/
theorem told?_join (f : Forest) (p : ProcessRecord) (q : Pid) :
    (f.join p).told? q =
      if q = p.ppid ∧ p.ppid ≠ p.pid then some ((f.told? q).getD (blank q)) else f.told? q := by
  rcases join_cases f p with ⟨hsame, hself⟩ | ⟨hne, hjoin⟩
  · simp [hsame, hself]
  · rw [hjoin, told?_modify (told_addChild p.pid), told?_ensure]
    -- Only the parent may be new, and only if it is another process.
    by_cases h : q = p.ppid <;> simp [h, hne]

/-- Adding a process makes its record known, and nothing else but a blank for its parent. -/
theorem told?_add (f : Forest) (p : ProcessRecord) (q : Pid) :
    (f.add p).told? q =
      if q = p.pid then some (false, p)
      else if q = p.ppid then some ((f.told? q).getD (blank q))
      else f.told? q := by
  rw [add, told?_join, told?_leave, told?_place]
  by_cases hpid : q = p.pid
  · simp [hpid]
  -- It is the parent of the added process, or has nothing to do with it.
  · by_cases hppid : q = p.ppid
    · have hne : p.ppid ≠ p.pid := fun h => hpid (hppid.trans h)
      simp [hppid, hne]
    · simp [hpid, hppid]

/-! ## Built forests -/

/-- Processes that are listed without a pid can only make it known as a blank. -/
theorem told?_foldl_of_not_mem {processes : List ProcessRecord} {pid : Pid}
    (hpid : pid ∉ processes.map (·.pid)) :
    (processes.foldl add f).told? pid =
      if pid ∈ processes.map (·.ppid) then some ((f.told? pid).getD (blank pid))
      else f.told? pid := by
  -- By induction on the list, over all forests to begin with.
  induction processes generalizing f with
  | nil => simp
  | cons p rest ih =>
    rw [List.map_cons, List.mem_cons, not_or] at hpid
    rw [List.foldl_cons, ih hpid.2, told?_add, if_neg hpid.1]
    by_cases hppid : pid = p.ppid
    · by_cases hrest : pid ∈ rest.map (·.ppid) <;> simp [hppid]
    · by_cases hrest : pid ∈ rest.map (·.ppid) <;> simp [hppid, hrest]

/-- What is never listed is known only if something names it as its parent. -/
theorem told?_build_of_not_mem {processes : List ProcessRecord} {pid : Pid}
    (hpid : pid ∉ processes.map (·.pid)) :
    (build processes).told? pid =
      if pid ∈ processes.map (·.ppid) then some (blank pid) else none := by
  rw [build, told?_foldl_of_not_mem hpid]
  rfl

/-- A process is known as it was listed last. -/
theorem told?_build_of_mem {before after : List ProcessRecord} {p : ProcessRecord}
    (hlast : p.pid ∉ after.map (·.pid)) :
    (build (before ++ p :: after)).told? p.pid = some (false, p) := by
  -- The processes behind the last entry of the pid do not list it any more.
  rw [build, List.foldl_append, List.foldl_cons, told?_foldl_of_not_mem hlast, told?_add,
    if_pos rfl]
  split <;> rfl

/-! ## Forests that are alike -/

/-- What the nodes know decides about the rest, except for the order of children. -/
theorem Linked.alike (hf : f.Linked) (hg : g.Linked) (h : ∀ pid, f.told? pid = g.told? pid) :
    f.Alike g where
  pids_eq := by
    have hmem : ∀ pid, pid ∈ f.pids ↔ pid ∈ g.pids := by
      intro pid
      rw [mem_pids_iff, mem_pids_iff, ← isSome_told?, ← isSome_told?, h]
    -- The pids are in order in both forests, so having the same ones makes them equal.
    have hperm : f.pids.Perm g.pids :=
      (List.perm_ext_iff_of_nodup hf.ascending.nodup hg.ascending.nodup).mpr hmem
    exact hf.ascending.eq_of_perm hg.ascending hperm
  told_eq := h
  hasChild_iff := by
    intro pid child
    rw [hf.hasChild_iff, hg.hasChild_iff, parent?_eq_told?, parent?_eq_told?, h]

/-- **The order of listing does not matter**, if no process is listed twice. -/
theorem build_alike {processes others : List ProcessRecord} (hperm : processes.Perm others)
    (hdistinct : (processes.map (·.pid)).Nodup) : (build processes).Alike (build others) := by
  refine (build_linked processes).alike (build_linked others) fun pid => ?_
  have hpids := hperm.map (·.pid)
  by_cases hpid : pid ∈ processes.map (·.pid)
  · obtain ⟨p, hp, rfl⟩ := List.mem_map.mp hpid
    -- A pid that is listed once is listed last there, wherever it stands.
    have hknown : ∀ {listing : List ProcessRecord}, (listing.map (·.pid)).Nodup → p ∈ listing →
        (build listing).told? p.pid = some (false, p) := by
      intro listing hnodup hmem
      obtain ⟨before, after, rfl⟩ := List.append_of_mem hmem
      rw [List.map_append, List.map_cons] at hnodup
      exact told?_build_of_mem (List.nodup_cons.mp hnodup.of_append_right).1
    rw [hknown hdistinct hp, hknown (hpids.nodup_iff.mp hdistinct) (hperm.mem_iff.mp hp)]
  -- A pid that is listed nowhere is known from the parents alone.
  · have hother : pid ∉ others.map (·.pid) := fun h => hpid (hpids.mem_iff.mpr h)
    rw [told?_build_of_not_mem hpid, told?_build_of_not_mem hother]
    simp only [(hperm.map (·.ppid)).mem_iff]

namespace Alike

variable (h : f.Alike g)

include h

/-- Forests that are alike have nodes for the same processes. -/
theorem contains_eq (pid : Pid) : f.contains pid = g.contains pid := by
  rw [← isSome_told?, ← isSome_told?, h.told_eq]

/-- Forests that are alike have equally many nodes. -/
theorem length_nodes_eq : f.nodes.length = g.nodes.length := by
  have hpids := congrArg List.length h.pids_eq
  rwa [pids, pids, List.length_map, List.length_map] at hpids

/-- A pid has a node in both forests or in none, and the nodes tell the same. -/
theorem get?_cases (pid : Pid) :
    f.get? pid = none ∧ g.get? pid = none ∨
      ∃ node other, f.get? pid = some node ∧ g.get? pid = some other ∧
        node.record = other.record := by
  have htold := h.told_eq pid
  rw [told?, told?] at htold
  -- What is known about the pid decides whether the other forest has a node.
  cases hf : f.get? pid with
  | none =>
    rw [hf, Option.map_none, eq_comm, Option.map_eq_none_iff] at htold
    exact Or.inl ⟨rfl, htold⟩
  | some node =>
    rw [hf, Option.map_some, eq_comm, Option.map_eq_some_iff] at htold
    obtain ⟨other, hg, hsame⟩ := htold
    exact Or.inr ⟨node, other, rfl, hg, congrArg Prod.snd hsame.symm⟩

end Alike

/-! ## Subtrees -/

/-- Whether a walk that starts at a root can come to a process. -/
def Reaches (f : Forest) (include_ : Pid → Bool) (root pid : Pid) : Prop :=
  (include_ root = true ∧ f.contains root = true) ∧
    Relation.ReflTransGen (fun parent child =>
      f.HasChild parent child ∧ include_ child = true ∧ f.contains child = true) root pid

section Reaches

variable {include_ : Pid → Bool} {root pid : Pid}

/-- A walk meets only what it can come to from its stack. -/
private theorem reaches_of_mem_walk {bound : Nat} {seen stack : List Pid} {node : ProcessNode}
    (hmem : node ∈ f.walk include_ bound seen stack) :
    ∃ start ∈ stack, f.Reaches include_ start node.pid := by
  fun_induction walk f include_ bound seen stack with
  | case1 => cases hmem
  | case2 => cases hmem
  -- A process that was seen or is not wanted is dropped from the stack.
  | case3 bound seen pid stack hpass ih =>
    obtain ⟨start, hstart, hreach⟩ := ih hmem
    exact ⟨start, List.mem_cons_of_mem _ hstart, hreach⟩
  | case4 bound seen pid stack hpass hget ih =>
    obtain ⟨start, hstart, hreach⟩ := ih hmem
    exact ⟨start, List.mem_cons_of_mem _ hstart, hreach⟩
  -- A process is visited; the way to it is empty, or begins with one of its children.
  | case5 bound seen pid stack hpass found hget ih =>
    have hinclude : include_ pid = true ∧ f.contains pid = true := by
      rw [Bool.or_eq_true, not_or, Bool.not_eq_true, Bool.not_eq_false'] at hpass
      exact ⟨hpass.1, contains_iff.mpr ⟨found, hget⟩⟩
    rcases List.mem_cons.mp hmem with rfl | hmem
    · rw [pid_of_get? hget]
      exact ⟨pid, List.mem_cons_self .., hinclude, .refl⟩
    · obtain ⟨start, hstart, hroot, hpath⟩ := ih hmem
      rcases List.mem_append.mp hstart with hchild | hstack
      · exact ⟨pid, List.mem_cons_self .., hinclude, .head ⟨⟨found, hget, hchild⟩, hroot⟩ hpath⟩
      · exact ⟨start, List.mem_cons_of_mem _ hstack, hroot, hpath⟩

/-- **A subtree is what its root reaches**, on circles too. -/
theorem mem_subtreePids_iff : pid ∈ f.subtreePids root include_ ↔ f.Reaches include_ root pid := by
  constructor
  · intro hpid
    obtain ⟨node, hnode, rfl⟩ := List.mem_map.mp hpid
    obtain ⟨start, hstart, hreach⟩ := reaches_of_mem_walk hnode
    rwa [List.mem_singleton.mp hstart] at hreach
  · rintro ⟨⟨hroot, hcon⟩, hpath⟩
    -- By induction on the way, which stays inside the subtree from step to step.
    induction hpath with
    | refl => exact root_mem_subtreePids hroot hcon
    | tail _ hstep ih => exact mem_subtreePids_of_hasChild ih hstep.1 hstep.2.1 hstep.2.2

/-- Forests that are alike have the same subtrees. -/
theorem Alike.subtreePids_perm (h : f.Alike g) (root : Pid) (include_ : Pid → Bool) :
    (f.subtreePids root include_).Perm (g.subtreePids root include_) := by
  refine (List.perm_ext_iff_of_nodup (nodup_subtreePids ..) (nodup_subtreePids ..)).mpr ?_
  intro pid
  rw [mem_subtreePids_iff, mem_subtreePids_iff, Reaches, Reaches]
  simp only [h.hasChild_iff, h.contains_eq]

end Reaches

end Forest

end SoftwareCensus
