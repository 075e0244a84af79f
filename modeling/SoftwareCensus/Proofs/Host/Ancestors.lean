import Mathlib.Logic.Relation
import SoftwareCensus.Proofs.Host.ForestWalk

/-!
# Ancestors

The ancestors of a process are listed upwards until a parent is not above the first process, or
comes again. Nothing is missed by that: where a parent comes again, what is above it was listed
before. So the ancestors are all processes above it, on circles of parents too.

## Main results

* `Forest.ancestorsFrom_closed` : the list is closed under parents above the first process
* `Forest.mem_ancestors_iff` : the ancestors are what is reached from parent to parent
-/

namespace SoftwareCensus.Forest

/-- Whether a process has the other one as its parent, which is above the first process. -/
def RunsUnder (f : Forest) (child parent : Pid) : Prop :=
  ∃ node, f.get? child = some node ∧ node.ppid = parent ∧ parent.isAboveInit = true

variable {f : Forest} {bound : Nat} {seen : List Pid} {next : Option Pid} {pid start : Pid}

/-- What is listed is new, and above the parent that the list begins with. -/
theorem reached_of_mem_ancestorsFrom (h : pid ∈ f.ancestorsFrom bound seen next) :
    pid ∉ seen ∧ ∃ parent, next = some parent ∧ parent.isAboveInit = true ∧
      Relation.ReflTransGen f.RunsUnder parent pid := by
  fun_induction ancestorsFrom f bound seen next with
  | case1 => cases h
  | case2 => cases h
  | case3 => cases h
  | case4 bound seen parent hgo ih =>
    simp only [Bool.or_eq_true, Bool.not_eq_true', not_or, Bool.not_eq_false,
      List.contains_iff_mem] at hgo
    rcases List.mem_cons.mp h with rfl | h
    · exact ⟨hgo.2, pid, rfl, hgo.1, .refl⟩
    · obtain ⟨hnew, above, habove, hinit, hpath⟩ := ih h
      obtain ⟨node, hnode, hppid⟩ := Option.map_eq_some_iff.mp habove
      exact ⟨List.not_mem_of_not_mem_cons hnew, parent, rfl, hgo.1,
        .head ⟨node, hnode, hppid, hinit⟩ hpath⟩

/-- **The list is closed under parents above the first process**, but for what was seen before. A
parent that has a node is seen from then on, so the bound is enough if it is above the number of
processes that were not. -/
theorem ancestorsFrom_closed (hbound : next.isSome = true → f.unseen seen < bound) :
    (∀ parent, next = some parent → parent.isAboveInit = true →
      parent ∈ seen ∨ parent ∈ f.ancestorsFrom bound seen next) ∧
    ∀ child ∈ f.ancestorsFrom bound seen next, ∀ parent, f.RunsUnder child parent →
      parent ∈ seen ∨ parent ∈ f.ancestorsFrom bound seen next := by
  fun_induction ancestorsFrom f bound seen next with
  | case1 seen next =>
    cases next with
    | none => simp
    | some parent => exact absurd (hbound rfl) (Nat.not_lt_zero _)
  | case2 => simp
  | case3 bound seen parent hstop =>
    -- The list ends here for one of two reasons, and either leaves nothing out.
    refine ⟨?_, by simp⟩
    intro same hsame hinit
    obtain rfl := Option.some.inj hsame
    exact Or.inl (by simpa [hinit] using hstop)
  | case4 bound seen parent hgo ih =>
    have hnew : parent ∉ seen := by
      intro hmem
      simp [hmem] at hgo
    have hstill : ((f.get? parent).map (·.ppid)).isSome = true →
        f.unseen (parent :: seen) < bound := by
      intro hsome
      have hcon : f.contains parent = true := by simpa [contains] using hsome
      have hfewer := unseen_cons_lt hcon hnew
      have hbefore := hbound rfl
      omega
    obtain ⟨hfirst, hclosed⟩ := ih hstill
    -- What the rest has seen is the parent, which is listed, or was seen before.
    have hlift : ∀ q, q ∈ parent :: seen ∨
        q ∈ f.ancestorsFrom bound (parent :: seen) ((f.get? parent).map (·.ppid)) →
        q ∈ seen ∨ q ∈ parent ::
          f.ancestorsFrom bound (parent :: seen) ((f.get? parent).map (·.ppid)) := by
      rintro q (hq | hq)
      · rcases List.mem_cons.mp hq with rfl | hq
        · exact Or.inr (List.mem_cons_self ..)
        · exact Or.inl hq
      · exact Or.inr (List.mem_cons_of_mem _ hq)
    constructor
    · intro same hsame _
      obtain rfl := Option.some.inj hsame
      exact Or.inr (List.mem_cons_self ..)
    · intro child hchild above habove
      apply hlift
      rcases List.mem_cons.mp hchild with rfl | hchild
      · obtain ⟨node, hnode, hppid, hinit⟩ := habove
        exact hfirst above (by rw [hnode, Option.map_some, hppid]) hinit
      · exact hclosed child hchild above habove

/-- **The ancestors of a process are what is reached from parent to parent** above the first
process, on circles of parents too, but for the process itself. -/
theorem mem_ancestors_iff :
    pid ∈ f.ancestors start ↔ pid ≠ start ∧ Relation.TransGen f.RunsUnder start pid := by
  have hbound : ((f.get? start).map (·.ppid)).isSome = true →
      f.unseen [start] < f.nodes.length + 1 := fun _ => Nat.lt_succ_of_le (unseen_le f [start])
  constructor
  · intro hpid
    obtain ⟨hnew, parent, hparent, hinit, hpath⟩ := reached_of_mem_ancestorsFrom hpid
    obtain ⟨node, hnode, hppid⟩ := Option.map_eq_some_iff.mp hparent
    exact ⟨by simpa using hnew, .head' ⟨node, hnode, hppid, hinit⟩ hpath⟩
  · rintro ⟨hne, hpath⟩
    obtain ⟨hfirst, hclosed⟩ := ancestorsFrom_closed hbound
    have hbegin : ∀ parent, f.RunsUnder start parent →
        parent = start ∨ parent ∈ f.ancestors start := by
      rintro parent ⟨node, hnode, hppid, hinit⟩
      simpa [ancestors] using hfirst parent (by rw [hnode, Option.map_some, hppid]) hinit
    -- From the process or an ancestor, one step up leads to the process or to an ancestor.
    have hall : pid = start ∨ pid ∈ f.ancestors start := by
      induction hpath with
      | single hstep => exact hbegin _ hstep
      | @tail child parent _ hstep ih =>
        by_cases hchild : child = start
        · rw [hchild] at hstep
          exact hbegin parent hstep
        · simpa [ancestors] using hclosed child ((ih hchild).resolve_left hchild) parent hstep
    exact hall.resolve_left hne

end SoftwareCensus.Forest
