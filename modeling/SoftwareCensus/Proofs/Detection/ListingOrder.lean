import Mathlib.Data.List.Forall2
import SoftwareCensus.Proofs.Detection.AncestorChain
import SoftwareCensus.Proofs.Host.ListingOrder

/-!
# Detection and the Order of Listing

Two passes go over forests that are alike, from one pool. They look at the same processes in the
same order, test the same chains of ancestors, and claim the same subtrees; only the order inside a
subtree may differ. What is claimed is compared as a set, since a pass asks for nothing else.

## Main results

* `detect_alike` : passes over forests that are alike find the same
* `detect_permuted_listing` : detection does not depend on the order in which processes are listed
-/

namespace SoftwareCensus

/-- Seeds that are the same, except for the order of what they claim. -/
structure Seed.Alike (seed other : Seed) : Prop where
  softwareType_eq : seed.softwareType = other.softwareType
  representative_eq : seed.representative = other.representative
  matched_eq : seed.matched = other.matched
  claimed_perm : seed.claimed.Perm other.claimed

namespace Detector

/-- Passes in which the same was tested and the same is claimed. -/
structure Pass.Alike (pass other : Pass) : Prop where
  tested_eq : pass.tested = other.tested
  used_iff : ∀ {pid}, pid ∈ pass.used ↔ pid ∈ other.used

namespace Pass.Alike

variable {pass other : Pass} (h : pass.Alike other)

include h

/-- Only what is claimed is asked for, so the same processes are available. -/
theorem isAvailable_eq (pool : Pool) : isAvailable pool pass = isAvailable pool other := by
  funext pid
  simp only [isAvailable, List.contains_eq_mem, h.used_iff]

/-- Marking a process as tested keeps passes alike. -/
theorem mark (pid : Pid) :
    Pass.Alike { pass with tested := pid :: pass.tested }
      { other with tested := pid :: other.tested } where
  tested_eq := congrArg (pid :: ·) h.tested_eq
  used_iff := h.used_iff

/-- A match is reported at the same process. -/
theorem representativeOf_eq (d : Detector) (pool : Pool) {node twin : ProcessNode}
    (hrecord : node.record = twin.record) :
    d.representativeOf pool pass node = d.representativeOf pool other twin := by
  have hpid : node.pid = twin.pid := congrArg ProcessRecord.pid hrecord
  have hppid : node.ppid = twin.ppid := congrArg ProcessRecord.ppid hrecord
  simp only [representativeOf, hpid, hppid, h.isAvailable_eq]

/-- Passes stay alike when one claims a subtree and the other the same in another order. -/
theorem use {claimed permuted : List Pid} (hclaimed : claimed.Perm permuted) :
    Pass.Alike { pass with used := claimed ++ pass.used }
      { other with used := permuted ++ other.used } where
  tested_eq := h.tested_eq
  used_iff := by
    intro pid
    rw [List.mem_append, List.mem_append, hclaimed.mem_iff, h.used_iff]

end Pass.Alike

/-- A search over one list with functions that agree gives results that agree. -/
private theorem findSome?_rel {α β γ : Type} {R : β → γ → Prop} {first : α → Option β}
    {second : α → Option γ} (h : ∀ x, Option.Rel R (first x) (second x)) (items : List α) :
    Option.Rel R (items.findSome? first) (items.findSome? second) := by
  induction items with
  | nil => exact .none
  | cons x rest ih =>
    have hx := h x
    rw [List.findSome?_cons, List.findSome?_cons]
    -- For one item both functions find something, or neither does.
    cases hfirst : first x <;> cases hsecond : second x <;> rw [hfirst, hsecond] at hx
    · exact ih
    · cases hx
    · cases hx
    · exact hx

section Twins

variable {f g : Forest} (hforest : f.Alike g) (d : Detector) (pool : Pool) {pass other : Pass}
  (hpass : pass.Alike other)

include hforest hpass

/-- The chain of a process is the same in both forests. -/
theorem chainFrom_alike (bound : Nat) (chain visited : List Pid) (current : Pid) :
    (chainFrom f pool bound pass chain visited current).1 =
        (chainFrom g pool bound other chain visited current).1 ∧
      (chainFrom f pool bound pass chain visited current).2.Alike
        (chainFrom g pool bound other chain visited current).2 := by
  induction bound generalizing pass other chain visited current with
  | zero => exact ⟨rfl, hpass⟩
  | succ bound ih =>
    -- There is a node in both forests or in neither, and both name the same parent.
    rcases hforest.get?_cases current with ⟨hf, hg⟩ | ⟨node, twin, hf, hg, hrecord⟩
    · simp only [chainFrom, hf, hg]
      exact ⟨trivial, hpass⟩
    · have hppid : node.ppid = twin.ppid := congrArg ProcessRecord.ppid hrecord
      simp only [chainFrom, hf, hg, hppid, hpass.tested_eq, hpass.isAvailable_eq]
      split
      · exact ⟨rfl, hpass⟩
      · exact ih (hpass.tested_eq ▸ hpass.mark twin.ppid) ..

/-- A process is claimed in both passes or in none, with the same subtree. -/
theorem tryClaim_alike (pid : Pid) :
    Option.Rel (fun claim twin => claim.1.Alike twin.1 ∧ claim.2.Alike twin.2)
      (d.tryClaim f pool pass pid) (d.tryClaim g pool other pid) := by
  rcases hforest.get?_cases pid with ⟨hf, hg⟩ | ⟨node, twin, hf, hg, hrecord⟩
  · simp only [tryClaim, hf, hg]
    exact .none
  · have hcmdline : node.cmdline = twin.cmdline := congrArg ProcessRecord.cmdline hrecord
    -- The match is reported at the same process, and the subtree of that one is claimed.
    have hplace : d.representativeOf pool pass node = d.representativeOf pool other twin :=
      hpass.representativeOf_eq d pool hrecord
    have hclaimed := hforest.subtreePids_perm (d.representativeOf pool other twin)
      (isAvailable pool other)
    rw [Forest.subtreePids, Forest.subtreePids] at hclaimed
    simp only [tryClaim, hf, hg, hcmdline, hplace, hpass.isAvailable_eq]
    -- The command line does not match, the subtree has nothing to claim, or the claim is made.
    split
    · exact .none
    · rw [hclaimed.isEmpty_eq]
      split
      · exact .none
      · exact .some ⟨⟨rfl, rfl, rfl, hclaimed⟩, hpass.use hclaimed⟩

/-- The search through the ancestors of a process finds the same in both passes. -/
theorem checkHierarchy_alike (start : Pid) :
    Option.Rel Seed.Alike (d.checkHierarchy f pool pass start).1
        (d.checkHierarchy g pool other start).1 ∧
      (d.checkHierarchy f pool pass start).2.Alike (d.checkHierarchy g pool other start).2 := by
  obtain ⟨hchain, hafter⟩ := chainFrom_alike hforest pool hpass (f.nodes.length + 1)
    [start] [start] start
  rw [checkHierarchy, checkHierarchy, ← hforest.length_nodes_eq]
  generalize chainFrom f pool (f.nodes.length + 1) pass [start] [start] start = first
    at hchain hafter ⊢
  generalize chainFrom g pool (f.nodes.length + 1) other [start] [start] start = second
    at hchain hafter ⊢
  obtain ⟨chain, mid⟩ := first
  obtain ⟨_, twin⟩ := second
  obtain rfl : chain = _ := hchain
  -- Both passes go through one chain, so the first claim is made at the same member.
  have hfound := findSome?_rel (tryClaim_alike hforest d pool hafter) chain
  simp only
  generalize chain.findSome? (d.tryClaim f pool mid) = found at hfound ⊢
  generalize chain.findSome? (d.tryClaim g pool twin) = same at hfound ⊢
  cases hfound with
  | some hclaim => exact ⟨.some hclaim.1, hclaim.2⟩
  | none => exact ⟨.none, hafter⟩

/-- A process is visited in both passes or in neither, and with the same result. -/
theorem visit_alike {seeds others : List Seed} (hseeds : List.Forall₂ Seed.Alike seeds others)
    (pid : Pid) :
    List.Forall₂ Seed.Alike (d.visit f pool seeds pass pid).1
        (d.visit g pool others other pid).1 ∧
      (d.visit f pool seeds pass pid).2.Alike (d.visit g pool others other pid).2 := by
  have hskip : (pass.used.contains pid || pass.tested.contains pid) =
      (other.used.contains pid || other.tested.contains pid) := by
    simp only [List.contains_eq_mem, hpass.used_iff, hpass.tested_eq]
  rw [visit, visit, hskip]
  -- Processes that are claimed or tested are skipped.
  split
  · exact ⟨hseeds, hpass⟩
  -- A process without a node is passed over, and so is one that does not match.
  · rcases hforest.get?_cases pid with ⟨hf, hg⟩ | ⟨node, twin, hf, hg, hrecord⟩
    · simp only [hf, hg]
      exact ⟨hseeds, hpass⟩
    · have hcmdline : node.cmdline = twin.cmdline := congrArg ProcessRecord.cmdline hrecord
      simp only [hf, hg, hcmdline]
      split
      · exact ⟨hseeds, hpass⟩
      · obtain ⟨hseed, hafter⟩ := checkHierarchy_alike hforest d pool hpass pid
        generalize d.checkHierarchy f pool pass pid = first at hseed hafter ⊢
        generalize d.checkHierarchy g pool other pid = second at hseed hafter ⊢
        obtain ⟨found, after⟩ := first
        obtain ⟨same, twin⟩ := second
        cases hseed with
        | some hseed => exact ⟨List.rel_append hseeds (.cons hseed .nil), hafter⟩
        | none => exact ⟨hseeds, hafter⟩

private theorem foldl_visit_alike {seeds others : List Seed}
    (hseeds : List.Forall₂ Seed.Alike seeds others) (pids : List Pid) :
    List.Forall₂ Seed.Alike
        (pids.foldl (fun (seeds, pass) pid => d.visit f pool seeds pass pid) (seeds, pass)).1
        (pids.foldl (fun (seeds, pass) pid => d.visit g pool seeds pass pid) (others, other)).1 ∧
      (pids.foldl (fun (seeds, pass) pid => d.visit f pool seeds pass pid) (seeds, pass)).2.Alike
        (pids.foldl (fun (seeds, pass) pid => d.visit g pool seeds pass pid) (others, other)).2 := by
  -- By induction on the pool, over all passes that are alike.
  induction pids generalizing pass other seeds others with
  | nil => exact ⟨hseeds, hpass⟩
  | cons pid rest ih =>
    obtain ⟨hnext, hafter⟩ := visit_alike hforest d pool hpass hseeds pid
    exact ih hafter hnext

end Twins

/-- Passes over forests that are alike find the same and leave the same. -/
theorem detect_alike {f g : Forest} (hforest : f.Alike g) (d : Detector) (pool : Pool) :
    List.Forall₂ Seed.Alike (d.detect f pool).1 (d.detect g pool).1 ∧
      (d.detect f pool).2 = (d.detect g pool).2 := by
  have hstart : Pass.Alike {} {} := ⟨rfl, Iff.rfl⟩
  obtain ⟨hseeds, hpass⟩ := foldl_visit_alike hforest d pool hstart .nil pool.pids
  refine ⟨hseeds, congrArg Pool.mk ?_⟩
  -- What is left are the processes that are not used, and that is asked of a set.
  refine List.filter_congr fun pid _ => ?_
  simp only [List.contains_eq_mem, hpass.used_iff]

/-- **Detection does not depend on the order of listing**: if no process is listed twice, a pass
finds the same instances in the same order, each claims the same processes, and the same is left. -/
theorem detect_permuted_listing {processes others : List ProcessRecord}
    (hperm : processes.Perm others) (hdistinct : (processes.map (·.pid)).Nodup) (pool : Pool)
    (d : Detector) :
    List.Forall₂ Seed.Alike (d.detect (Forest.build processes) pool).1
        (d.detect (Forest.build others) pool).1 ∧
      (d.detect (Forest.build processes) pool).2 = (d.detect (Forest.build others) pool).2 :=
  detect_alike (Forest.build_alike hperm hdistinct) d pool

/-- A process with two children, of which one is listed before it. -/
private def family : List ProcessRecord :=
  [{ pid := ⟨"3"⟩, ppid := ⟨"1"⟩ }, { pid := ⟨"1"⟩, cmdline := "redis" },
   { pid := ⟨"2"⟩, ppid := ⟨"1"⟩ }]

private def server : Detector := ⟨"redis", .parent, (· == "redis"), rfl⟩

/-- The children come in the other order, and the instance claims the same. -/
theorem detect_permuted_listing_family :
    (server.detect (Forest.build family) ⟨[⟨"1"⟩, ⟨"2"⟩, ⟨"3"⟩]⟩).1 =
        [⟨"redis", ⟨"1"⟩, ⟨"1"⟩, [⟨"1"⟩, ⟨"3"⟩, ⟨"2"⟩]⟩] ∧
      (server.detect (Forest.build family.reverse) ⟨[⟨"1"⟩, ⟨"2"⟩, ⟨"3"⟩]⟩).1 =
        [⟨"redis", ⟨"1"⟩, ⟨"1"⟩, [⟨"1"⟩, ⟨"2"⟩, ⟨"3"⟩]⟩] ∧
      List.Forall₂ Seed.Alike
        (server.detect (Forest.build family) ⟨[⟨"1"⟩, ⟨"2"⟩, ⟨"3"⟩]⟩).1
        (server.detect (Forest.build family.reverse) ⟨[⟨"1"⟩, ⟨"2"⟩, ⟨"3"⟩]⟩).1 :=
  ⟨by decide, by decide,
    (detect_permuted_listing (List.reverse_perm family).symm (by decide) _ server).1⟩

end Detector

end SoftwareCensus
