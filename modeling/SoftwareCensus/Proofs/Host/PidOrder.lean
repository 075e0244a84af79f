import Mathlib.Data.List.Nodup
import Mathlib.Data.List.Perm.Basic
import SoftwareCensus.Host.Pid

/-!
# The Order of Process Ids

The order of ids is a strict total order that agrees with equality, so a list in ascending order
has every id once, and adding an id keeps such a list ascending.

## Main results

* `Pid.Ascending.insert` : adding an id keeps a list ascending
* `Pid.insert_perm` : an id that is new is added exactly once
-/

namespace SoftwareCensus.Pid

/-! ## The order -/

/-- The order is the same from either side. -/
theorem cmp_swap (p q : Pid) : p.cmp q = (q.cmp p).swap := by
  -- Two ids are compared as numbers first if both are numbers, as texts if neither is.
  cases hp : p.number? <;> cases hq : q.number? <;> simp only [cmp, hp, hq]
  · exact Std.OrientedOrd.eq_swap
  · rfl
  · rfl
  · rw [Ordering.swap_then, ← Std.OrientedOrd.eq_swap, ← Std.OrientedOrd.eq_swap]

@[simp]
theorem cmp_self (p : Pid) : p.cmp p = .eq := by
  cases hp : p.number? <;> simp [cmp, hp]

/-- A place in the order is taken by one text only. -/
theorem eq_of_cmp {p q : Pid} (h : p.cmp q = .eq) : p = q := by
  -- In one place are two texts, or two numbers with their texts; either way the texts agree.
  have htext : p.text = q.text := by
    cases hp : p.number? <;> cases hq : q.number? <;> simp only [cmp, hp, hq] at h
    · exact Std.LawfulEqOrd.eq_of_compare h
    · cases h
    · cases h
    · exact Std.LawfulEqOrd.eq_of_compare (Ordering.then_eq_eq.mp h).2
  cases p
  cases q
  exact congrArg Pid.mk htext

/-- Among ids with numbers the order is that of pairs of a number and a text. -/
private theorem isLE_trans_of_numbers {m n k : Nat} {s t u : String}
    (hmn : ((compare m n).then (compare s t)).isLE)
    (hnk : ((compare n k).then (compare t u)).isLE) :
    ((compare m k).then (compare s u)).isLE :=
  @Std.TransCmp.isLE_trans (Nat × String)
    (compareLex (compareOn Prod.fst) (compareOn Prod.snd)) _ (m, s) (n, t) (k, u) hmn hnk

theorem isLE_cmp_trans {p q r : Pid} (hpq : (p.cmp q).isLE) (hqr : (q.cmp r).isLE) :
    (p.cmp r).isLE := by
  -- Ids without a number are above all others, so most of the eight cases contradict a hypothesis.
  cases hp : p.number? <;> cases hq : q.number? <;> cases hr : r.number? <;>
    simp only [cmp, hp, hq, hr] at hpq hqr ⊢
  · exact Std.TransOrd.isLE_trans hpq hqr
  · cases hqr
  · cases hpq
  · cases hpq
  · rfl
  · cases hqr
  · rfl
  · exact isLE_trans_of_numbers hpq hqr

instance : Std.OrientedCmp Pid.cmp where
  eq_swap := cmp_swap _ _

instance : Std.LawfulEqCmp Pid.cmp where
  compare_self := cmp_self _
  eq_of_compare := eq_of_cmp

instance : Std.TransCmp Pid.cmp where
  isLE_trans := isLE_cmp_trans

/-! ## Ascending lists -/

/-- A list in strictly ascending order. -/
def Ascending (pids : List Pid) : Prop := pids.Pairwise fun p q => p.cmp q = .lt

/-- A list in strictly ascending order has nothing twice. -/
theorem Ascending.nodup {pids : List Pid} (h : Ascending pids) : pids.Nodup := by
  refine h.imp ?_
  intro p q hlt heq
  subst heq
  simp at hlt

/-- Ascending lists with the same members are the same list. -/
theorem Ascending.eq_of_perm {pids others : List Pid} (h : Ascending pids)
    (hothers : Ascending others) (hperm : pids.Perm others) : pids = others := by
  refine hperm.eq_of_pairwise ?_ h hothers
  intro p q _ _ hpq hqp
  exact absurd hqp (Std.OrientedCmp.not_lt_of_lt hpq)

theorem Ascending.filter {pids : List Pid} (h : Ascending pids) (keep : Pid → Bool) :
    Ascending (pids.filter keep) :=
  List.Pairwise.filter keep h

/-- Adding an id adds that one, and only if it is missing. -/
@[simp]
theorem mem_insert {p q : Pid} {pids : List Pid} : q ∈ insert p pids ↔ q = p ∨ q ∈ pids := by
  -- The list is gone through as `insert` does: in front, the same, or further on.
  induction pids with
  | nil => simp [insert]
  | cons r rest ih =>
    cases hcmp : p.cmp r with
    | lt => simp [insert, hcmp]
    | eq =>
      obtain rfl := eq_of_cmp hcmp
      simp [insert]
    | gt =>
      simp only [insert, hcmp, List.mem_cons, ih]
      exact or_left_comm

theorem Ascending.insert {pids : List Pid} (h : Ascending pids) (p : Pid) :
    Ascending (insert p pids) := by
  induction pids with
  | nil => exact List.pairwise_singleton _ p
  | cons r rest ih =>
    obtain ⟨hr, hrest⟩ := List.pairwise_cons.mp h
    cases hcmp : p.cmp r with
    | lt =>
      simp only [Pid.insert, hcmp]
      refine List.pairwise_cons.mpr ⟨?_, h⟩
      intro q hq
      rcases List.mem_cons.mp hq with rfl | hq
      · exact hcmp
      · exact Std.TransCmp.lt_trans hcmp (hr q hq)
    -- An id that is there is not added again.
    | eq =>
      simp only [Pid.insert, hcmp]
      exact h
    | gt =>
      simp only [Pid.insert, hcmp]
      refine List.pairwise_cons.mpr ⟨?_, ih hrest⟩
      intro q hq
      rcases mem_insert.mp hq with rfl | hq
      · exact Std.OrientedCmp.lt_of_gt hcmp
      · exact hr q hq

/-- An id that is new is added exactly once. -/
theorem insert_perm {p : Pid} {pids : List Pid} (hp : p ∉ pids) :
    (insert p pids).Perm (p :: pids) := by
  induction pids with
  | nil => exact .refl _
  | cons r rest ih =>
    cases hcmp : p.cmp r with
    | lt =>
      simp only [insert, hcmp]
      exact .refl _
    -- The id is new, so it is not met.
    | eq =>
      exact absurd (eq_of_cmp hcmp) (List.ne_of_not_mem_cons hp)
    | gt =>
      simp only [insert, hcmp]
      exact ((ih (List.not_mem_of_not_mem_cons hp)).cons r).trans (.swap p r rest)

/-! ## The root -/

@[simp]
theorem isRoot_root : root.isRoot = true := by decide

end SoftwareCensus.Pid
