import SoftwareCensus.Proofs.Document.Entries
import SoftwareCensus.Proofs.Host.ListingOrder

/-!
# Subtrees and their Documents

There are two traversals of the tree under a process. A walk keeps a stack and marks a pid when it
takes it from there; the document of the tree is made by recursion, which marks a pid when it enters
it and looks at the marks before it descends. Both meet the same processes in the same order, on
circles of parents too, whatever is included.

The two are brought together by what a part of the recursion does for a walk: the pids that it
enters are the ones that the walk meets before it comes to the rest of its stack.

## Main results

* `Forest.traces_renderFrom` : the recursion under a pid goes where a walk from there goes
* `Forest.treePids_render` : the document of a tree tells the pids of the subtree in their order
* `Forest.render_lists_subtree` : both traversals list what the root reaches, each process once
-/

namespace SoftwareCensus

/-! ## Pids in a document -/

namespace Document

mutual

/-- The pids that a document of a tree tells, a node before the entries of its children. -/
def treePids : Document → List String
  | .map fields =>
    (match Fields.get? fields "pid" with
      | some (.str pid) => [pid]
      | _ => []) ++ childrenPids fields
  | .list trees => forestPids trees
  | _ => []

/-- The pids that a list of trees tells, one tree after the other. -/
def forestPids : List Document → List String
  | [] => []
  | tree :: rest => treePids tree ++ forestPids rest

/-- The pids under the entry of the children. -/
def childrenPids : List (String × Document) → List String
  | [] => []
  | (key, d) :: rest => if key == "children" then treePids d else childrenPids rest

end

theorem childrenPids_of_get? {fields : Fields} {d : Document}
    (h : fields.get? "children" = some d) : childrenPids fields = treePids d := by
  induction fields with
  | nil => cases h
  | cons entry rest ih =>
    obtain ⟨key, value⟩ := entry
    rw [Fields.get?_cons] at h
    rw [childrenPids]
    -- The entry is the first one, or it is among the others.
    by_cases hkey : key = "children"
    · rw [if_pos hkey] at h
      rw [if_pos (by simpa using hkey), Option.some.inj h]
    · rw [if_neg hkey] at h
      rw [if_neg (by simpa using hkey), ih h]

end Document

namespace Forest

open Document

variable {f : Forest} {include_ : Pid → Bool}

/-- The document of a node tells its pid, and then what its children tell. Whatever else is known of
the process does not hide these entries. -/
theorem treePids_nodeDocument (node : ProcessNode) (children : List Document) :
    (nodeDocument node children).treePids = node.pid.text :: forestPids children := by
  have hentries : ∃ fields : Fields, nodeDocument node children = .map fields ∧
      fields.get? "pid" = some (.str node.pid.text) ∧
      fields.get? "children" = some (.list children) := by
    refine ⟨_, rfl, ?_, ?_⟩
    · -- Only entries with other names are added behind the pid.
      split <;> cases node.user <;> cases node.cwd <;> simp [Fields.get?_insert]
    · split <;> simp [Fields.get?_insert]
  obtain ⟨fields, hmap, hpid, hchildren⟩ := hentries
  rw [hmap, treePids, hpid, childrenPids_of_get? hchildren, treePids]
  rfl

/-! ## Walks without a bound -/

/-- The pids that a walk meets if its bound is enough. -/
def visits (f : Forest) (include_ : Pid → Bool) (seen stack : List Pid) : List Pid :=
  (f.walk include_ (stack.length + unmet seen f.nodes) seen stack).map (·.pid)

section Visits

variable {seen stack : List Pid} {pid : Pid}

theorem visits_eq_walk {bound : Nat} (hbound : stack.length + unmet seen f.nodes ≤ bound) :
    f.visits include_ seen stack = (f.walk include_ bound seen stack).map (·.pid) := by
  rw [visits, walk_eq_of_enough (Nat.le_refl _) hbound]

theorem subtreePids_eq_visits (f : Forest) (root : Pid) (include_ : Pid → Bool) :
    f.subtreePids root include_ = f.visits include_ [] [root] := by
  rw [subtreePids, subtree, walkBound_eq]
  rfl

/-- What is not included or was met is passed over. -/
theorem visits_pass (hpass : include_ pid = false ∨ pid ∈ seen) :
    f.visits include_ seen (pid :: stack) = f.visits include_ seen stack := by
  have hcut : (!include_ pid || seen.contains pid) = true := by simpa using hpass
  have hbound : (pid :: stack).length + unmet seen f.nodes =
      stack.length + unmet seen f.nodes + 1 := by
    rw [List.length_cons]
    omega
  rw [visits, hbound, walk, if_pos hcut]
  rfl

/-- A node that is met puts its children before the rest of the stack. -/
theorem visits_meet {node : ProcessNode} (hnode : f.get? pid = some node)
    (hinclude : include_ pid = true) (hnew : pid ∉ seen) :
    f.visits include_ seen (pid :: stack) =
      pid :: f.visits include_ (pid :: seen) (node.children ++ stack) := by
  have hgo : ¬ (!include_ pid || seen.contains pid) = true := by simp [hinclude, hnew]
  have hbound : (pid :: stack).length + unmet seen f.nodes =
      stack.length + unmet seen f.nodes + 1 := by
    rw [List.length_cons]
    omega
  have hpid : node.pid = pid := pid_of_get? hnode
  -- The bound pays for the children, as they are put on the stack only here.
  have hle := unmet_of_mem (mem_nodes_of_get? hnode) (hpid.symm ▸ hnew)
  rw [hpid] at hle
  rw [visits, hbound, walk, if_neg hgo, hnode, visits_eq_walk, List.map_cons, hpid]
  rw [List.length_append]
  omega

end Visits

/-! ## The recursion along a walk -/

/-- What a part of a traversal does for a walk: where pids come before the rest of the stack, the
walk lists what is told for them, and goes on with the rest and with what was met by then. -/
structure Traces (f : Forest) (include_ : Pid → Bool) (seen pids : List Pid)
    (told : List String) (after : List Pid) : Prop where
  lists : ∀ stack, (f.visits include_ seen (pids ++ stack)).map (·.text) =
    told ++ (f.visits include_ after stack).map (·.text)
  met : seen ⊆ after

namespace Traces

variable {seen mid after pids more : List Pid} {told later : List String} {pid : Pid}

theorem nil (seen : List Pid) : f.Traces include_ seen [] [] seen where
  lists _ := rfl
  met := List.Subset.refl seen

theorem append (first : f.Traces include_ seen pids told mid)
    (second : f.Traces include_ mid more later after) :
    f.Traces include_ seen (pids ++ more) (told ++ later) after where
  lists stack := by rw [List.append_assoc, first.lists, second.lists, List.append_assoc]
  met := List.Subset.trans first.met second.met

theorem pass (hpass : include_ pid = false ∨ pid ∈ seen) :
    f.Traces include_ seen [pid] [] seen where
  lists _ := congrArg _ (visits_pass hpass)
  met := List.Subset.refl seen

theorem meet {node : ProcessNode} (hnode : f.get? pid = some node)
    (hinclude : include_ pid = true) (hnew : pid ∉ seen)
    (h : f.Traces include_ (pid :: seen) node.children told after) :
    f.Traces include_ seen [pid] (pid.text :: told) after where
  lists stack := by
    rw [List.singleton_append, visits_meet hnode hinclude hnew, List.map_cons, h.lists]
    rfl
  met := List.Subset.trans (List.subset_cons_self pid seen) h.met

end Traces

/-- The trees of the children before, and that of one more child unless it is passed over. -/
def renderChild (f : Forest) (include_ : Pid → Bool) (bound : Nat) :
    List Document × List Pid → Pid → List Document × List Pid :=
  fun (children, seen) child =>
    if seen.contains child || !include_ child then (children, seen)
    else
      let (d, seen) := f.renderFrom include_ bound seen child
      (children ++ [d], seen)

theorem renderFrom_of_get? {pid : Pid} {node : ProcessNode} (hnode : f.get? pid = some node)
    (bound : Nat) (seen : List Pid) :
    f.renderFrom include_ (bound + 1) seen pid =
      (nodeDocument node (node.children.foldl (f.renderChild include_ bound) ([], pid :: seen)).1,
        (node.children.foldl (f.renderChild include_ bound) ([], pid :: seen)).2) := by
  rw [renderFrom, hnode]
  rfl

section Recursion

variable {bound : Nat}

/-- What the recursion under a pid promises, if its bound is enough for what was not met. -/
def Renders (f : Forest) (include_ : Pid → Bool) (bound : Nat) : Prop :=
  ∀ seen pid, f.contains pid = true → include_ pid = true → pid ∉ seen → f.unseen seen ≤ bound →
    f.Traces include_ seen [pid] (f.renderFrom include_ bound seen pid).1.treePids
      (f.renderFrom include_ bound seen pid).2

/-- The trees of children are told one after the other. -/
theorem traces_foldl_renderChild (hrender : f.Renders include_ bound) (pids : List Pid)
    (hpids : ∀ pid ∈ pids, f.contains pid = true) (seen : List Pid)
    (hbound : f.unseen seen ≤ bound) (before : List Document) :
    ∃ trees, (pids.foldl (f.renderChild include_ bound) (before, seen)).1 = before ++ trees ∧
      f.Traces include_ seen pids (forestPids trees)
        (pids.foldl (f.renderChild include_ bound) (before, seen)).2 := by
  induction pids generalizing seen before with
  | nil => exact ⟨[], (List.append_nil before).symm, Traces.nil seen⟩
  | cons pid rest ih =>
    obtain ⟨hcon, hrest⟩ := List.forall_mem_cons.mp hpids
    rw [List.foldl_cons]
    by_cases hpass : (seen.contains pid || !include_ pid) = true
    · -- The child is left out, and the walk passes it over.
      have hskip : f.renderChild include_ bound (before, seen) pid = (before, seen) := if_pos hpass
      rw [hskip]
      obtain ⟨trees, htrees, htraces⟩ := ih hrest seen hbound before
      have hpid : include_ pid = false ∨ pid ∈ seen := by simpa [or_comm] using hpass
      exact ⟨trees, htrees, (Traces.pass hpid).append htraces⟩
    · have hgo : f.renderChild include_ bound (before, seen) pid =
          (before ++ [(f.renderFrom include_ bound seen pid).1],
            (f.renderFrom include_ bound seen pid).2) := if_neg hpass
      rw [hgo]
      have hpid : pid ∉ seen ∧ include_ pid = true := by simpa using hpass
      have hfirst := hrender seen pid hcon hpid.2 hpid.1 hbound
      -- More is met by now, so the bound is still enough.
      have hstill := (unseen_mono hfirst.met).trans hbound
      obtain ⟨trees, htrees, htraces⟩ := ih hrest _ hstill _
      refine ⟨(f.renderFrom include_ bound seen pid).1 :: trees, ?_, ?_⟩
      · rw [htrees, List.append_assoc]
        rfl
      · rw [forestPids]
        exact hfirst.append htraces

/-- **The recursion under a pid goes where a walk from there goes**, if children have nodes. Every
level meets a process, so the bound is enough if it is enough for what was not met before. -/
theorem traces_renderFrom (hf : ∀ {pid child}, f.HasChild pid child → f.contains child = true)
    (bound : Nat) : f.Renders include_ bound := by
  induction bound with
  -- A process that was not met makes the bound positive.
  | zero =>
    intro seen pid hcon _ hnew hbound
    have hlt := unseen_cons_lt hcon hnew
    omega
  | succ bound ih =>
    intro seen pid hcon hinclude hnew hbound
    obtain ⟨node, hnode⟩ := contains_iff.mp hcon
    have hlt := unseen_cons_lt hcon hnew
    have hchildren : ∀ child ∈ node.children, f.contains child = true :=
      fun child hchild => hf ⟨node, hnode, hchild⟩
    obtain ⟨trees, htrees, htraces⟩ :=
      traces_foldl_renderChild ih node.children hchildren (pid :: seen) (by omega) []
    rw [renderFrom_of_get? hnode, htrees, List.nil_append, treePids_nodeDocument,
      pid_of_get? hnode]
    exact htraces.meet hnode hinclude hnew

end Recursion

/-! ## Whole trees -/

/-- The document of a tree tells the pids of the subtree in their order. -/
theorem treePids_render (hf : f.Linked) {root : Pid} (hroot : f.contains root = true)
    (hinclude : include_ root = true) :
    (f.render root include_).treePids = (f.subtreePids root include_).map (·.text) := by
  have hbound : f.unseen [] ≤ f.nodes.length + 1 := (unseen_le f []).trans (Nat.le_succ _)
  -- The recursion begins at the root with nothing met, and its bound is the number of nodes.
  have htraces := traces_renderFrom hf.contains_of_hasChild (f.nodes.length + 1) [] root hroot
    hinclude List.not_mem_nil hbound
  -- Behind the root the stack is empty, and so is the rest of the walk.
  have hend : ∀ seen, f.visits include_ seen [] = [] := by
    intro seen
    rw [visits]
    cases ([] : List Pid).length + unmet seen f.nodes <;> rfl
  have hlists := htraces.lists []
  rw [List.append_nil, hend, List.map_nil, List.append_nil] at hlists
  rw [render, subtreePids_eq_visits, hlists]

/-- **Both traversals list what the root reaches**: from a process that is included, the document of
the tree tells the pids of the subtree in their order; each of them comes once, and they are what is
reached over children that are included, on circles of parents too. -/
theorem render_lists_subtree (processes : List ProcessRecord) (records : List PortRecord)
    (root : Pid) (include_ : Pid → Bool)
    (hroot : root ∈ ((build processes).attachPorts records).pids)
    (hinclude : include_ root = true) :
    let f := (build processes).attachPorts records
    (f.render root include_).treePids = (f.subtree root include_).map (·.pid.text) ∧
      ((f.subtree root include_).map (·.pid)).Nodup ∧
      ∀ pid, pid ∈ (f.subtree root include_).map (·.pid) ↔
        Relation.ReflTransGen
          (fun parent child => f.HasChild parent child ∧ include_ child = true) root pid := by
  intro f
  have hf : f.Linked := attachPorts_linked records (build_linked processes)
  have hcon : f.contains root = true := mem_pids_iff.mp hroot
  refine ⟨?_, nodup_subtreePids f root include_, fun pid => ?_⟩
  · rw [treePids_render hf hcon hinclude, subtreePids, List.map_map]
    rfl
  · have hreaches : pid ∈ f.subtreePids root include_ ↔ f.Reaches include_ root pid :=
      mem_subtreePids_iff
    -- A child has a node, so this need not be asked for.
    have hstep : (fun parent child => f.HasChild parent child ∧ include_ child = true ∧
        f.contains child = true) = fun parent child =>
          f.HasChild parent child ∧ include_ child = true := by
      funext parent child
      exact propext ⟨fun h => ⟨h.1, h.2.1⟩, fun h => ⟨h.1, h.2, hf.contains_of_hasChild h.1⟩⟩
    rw [← subtreePids, hreaches, Reaches, and_iff_right ⟨hinclude, hcon⟩, hstep]

/-- Two processes that have each other as the parent, and a child of one that is left out. -/
private def knot : List ProcessRecord :=
  [{ pid := ⟨"3"⟩, ppid := ⟨"5"⟩ }, { pid := ⟨"5"⟩, ppid := ⟨"3"⟩ },
    { pid := ⟨"7"⟩, ppid := ⟨"5"⟩ }]

/-- From either side a circle is followed once. -/
theorem render_lists_subtree_knot :
    (((build knot).attachPorts []).render ⟨"5"⟩ (· != ⟨"7"⟩)).treePids = ["5", "3"] :=
  (render_lists_subtree knot [] ⟨"5"⟩ (· != ⟨"7"⟩) (by decide) (by decide)).1.trans (by decide)

end Forest

end SoftwareCensus
