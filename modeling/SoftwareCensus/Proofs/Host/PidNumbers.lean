import Mathlib.Data.String.Basic
import SoftwareCensus.Proofs.Host.PidOrder
import SoftwareCensus.Proofs.Numeral.Naturals
import SoftwareCensus.Proofs.Text.Trimming

/-!
# The Numbers of Process Ids

An id is a text, and many texts have the same number: zeros and a plus sign in front of the digits
and white space around them make no difference to it. A text whose number does not fit into 64 bits
has none. What comes first is decided by the numbers, with the texts to tell ids of one number apart.

## Main results

* `number?_eq_some_iff` : the number of an id, told from its text
* `cmp_eq_lt_iff` : which of two ids comes first, told from their numbers and texts
* `cmp_strictly_orders` : a strict total order that agrees with equality, and the three kinds of ids
-/

namespace SoftwareCensus.Pid

open Numeral

variable {p q : Pid} {m n : Nat}

/-! ## Numbers -/

/-- The text of an id spells a number of 64 bits, with any white space around it. -/
def Numbered (p : Pid) (n : Nat) : Prop :=
  (n : Int) ≤ maxUInt64 ∧ ∃ before spelling after : List Char,
    (∀ c ∈ before, Text.isBlank c = true) ∧ (∀ c ∈ after, Text.isBlank c = true) ∧
      p.text.toList = before ++ spelling ++ after ∧ SpellsNat spelling n

/-- There is no white space in a number. -/
private theorem trimList_of_spellsNat {spelling : List Char} (h : SpellsNat spelling n) :
    Text.trimList spelling = spelling := by
  apply Text.trimList_of_forall
  intro c hc
  rcases h.isDigit_or_plus c hc with hdigit | rfl
  · exact Text.not_isBlank_of_isDigit hdigit
  · decide

/-- **The number of an id** is what its text spells, if that fits into 64 bits. -/
theorem number?_eq_some_iff : p.number? = some n ↔ p.Numbered n := by
  rw [number?, Option.filter_eq_some_iff, readNat?_eq_some_iff, decide_eq_true_eq, and_comm]
  refine and_congr_right fun _ => ?_
  constructor
  · intro hspells
    obtain ⟨before, after, hbefore, hafter, htext⟩ := Text.exists_between_trimList p.text.toList
    exact ⟨before, _, after, hbefore, hafter, htext, hspells⟩
  · rintro ⟨before, spelling, after, hbefore, hafter, htext, hspells⟩
    rwa [htext, Text.trimList_between hbefore hafter, trimList_of_spellsNat hspells]

theorem number?_eq_none_iff : p.number? = none ↔ ∀ n, ¬ p.Numbered n := by
  rw [Option.eq_none_iff_forall_ne_some]
  exact forall_congr' fun n => not_congr number?_eq_some_iff

theorem isBlank_iff : p.isBlank = true ↔ ∀ c ∈ p.text.toList, Text.isBlank c = true := by
  rw [Pid.isBlank, List.isEmpty_iff, Text.trimList_eq_nil_iff]

/-! ## The order -/

/-- What makes an id come before another one. -/
inductive Precedes : Pid → Pid → Prop
  | smaller {p q : Pid} {m n : Nat} (hp : p.Numbered m) (hq : q.Numbered n) (h : m < n) :
    Precedes p q
  /-- Of two spellings of one number the lesser text comes first. -/
  | sameNumber {p q : Pid} {n : Nat} (hp : p.Numbered n) (hq : q.Numbered n)
    (h : p.text < q.text) : Precedes p q
  | onlyNumber {p q : Pid} {n : Nat} (hp : p.Numbered n) (hq : ∀ n, ¬ q.Numbered n) :
    Precedes p q
  | noNumber {p q : Pid} (hp : ∀ n, ¬ p.Numbered n) (hq : ∀ n, ¬ q.Numbered n)
    (h : p.text < q.text) : Precedes p q

theorem cmp_eq_lt_of_precedes (h : p.Precedes q) : p.cmp q = .lt := by
  cases h with
  | smaller hp hq h =>
    rw [cmp, number?_eq_some_iff.mpr hp, number?_eq_some_iff.mpr hq]
    exact Ordering.then_eq_lt.mpr (.inl (compare_lt_iff_lt.mpr h))
  | sameNumber hp hq h =>
    rw [cmp, number?_eq_some_iff.mpr hp, number?_eq_some_iff.mpr hq]
    exact Ordering.then_eq_lt.mpr (.inr ⟨compare_eq_iff_eq.mpr rfl, compare_lt_iff_lt.mpr h⟩)
  | onlyNumber hp hq => rw [cmp, number?_eq_some_iff.mpr hp, number?_eq_none_iff.mpr hq]
  | noNumber hp hq h =>
    rw [cmp, number?_eq_none_iff.mpr hp, number?_eq_none_iff.mpr hq]
    exact compare_lt_iff_lt.mpr h

theorem precedes_of_cmp_eq_lt (h : p.cmp q = .lt) : p.Precedes q := by
  -- The cases are those of the comparison; without a number nothing comes before a number.
  cases hp : p.number? with
  | none =>
    cases hq : q.number? with
    | none =>
      simp only [cmp, hp, hq] at h
      exact .noNumber (number?_eq_none_iff.mp hp) (number?_eq_none_iff.mp hq)
        (compare_lt_iff_lt.mp h)
    | some n => simp only [cmp, hp, hq, reduceCtorEq] at h
  | some m =>
    cases hq : q.number? with
    | none => exact .onlyNumber (number?_eq_some_iff.mp hp) (number?_eq_none_iff.mp hq)
    | some n =>
      simp only [cmp, hp, hq] at h
      have hp := number?_eq_some_iff.mp hp
      have hq := number?_eq_some_iff.mp hq
      rcases Ordering.then_eq_lt.mp h with hlt | ⟨heq, htext⟩
      · exact .smaller hp hq (compare_lt_iff_lt.mp hlt)
      · obtain rfl := compare_eq_iff_eq.mp heq
        exact .sameNumber hp hq (compare_lt_iff_lt.mp htext)

/-- **Which id comes first** is told by the numbers and, where these do not tell, by the texts. -/
theorem cmp_eq_lt_iff : p.cmp q = .lt ↔ p.Precedes q :=
  ⟨precedes_of_cmp_eq_lt, cmp_eq_lt_of_precedes⟩

theorem cmp_eq_gt_iff : p.cmp q = .gt ↔ q.Precedes p :=
  Std.OrientedCmp.gt_iff_lt.trans cmp_eq_lt_iff

theorem cmp_eq_eq_iff : p.cmp q = .eq ↔ p.text = q.text := by
  constructor
  · intro h
    rw [eq_of_cmp h]
  · intro h
    have hpq : p = q := by
      cases p
      cases q
      exact congrArg Pid.mk h
    rw [hpq, cmp_self]

instance isStrictTotalOrder : IsStrictTotalOrder Pid (fun p q => p.cmp q = .lt) where
  irrefl p := by simp
  trans _ _ _ := Std.TransCmp.lt_trans
  trichotomous p q hlt hgt := by
    cases h : p.cmp q with
    | lt => exact absurd h hlt
    | eq => exact eq_of_cmp h
    | gt => exact absurd (Std.OrientedCmp.lt_of_gt h) hgt

/-! ## Kinds of ids -/

/-- **Every id is of one kind.** It stands for no process, with zero or with nothing but white space
in it, or for the first process, or for one above that. Ids without a number are above it. -/
theorem kind_cases (p : Pid) :
    (p.Numbered 0 ∨ ∀ c ∈ p.text.toList, Text.isBlank c = true) ∧
        p.isRoot = true ∧ p.number? ≠ some 1 ∧ p.isAboveInit = false ∨
      p.Numbered 1 ∧ p.isRoot = false ∧ p.number? = some 1 ∧ p.isAboveInit = false ∨
      ((∃ n, 1 < n ∧ p.Numbered n) ∨
          (∀ n, ¬ p.Numbered n) ∧ ¬ ∀ c ∈ p.text.toList, Text.isBlank c = true) ∧
        p.isRoot = false ∧ p.number? ≠ some 1 ∧ p.isAboveInit = true := by
  cases hnumber : p.number? with
  | none =>
    -- Without a number, anything but white space makes it an id of a process.
    cases hblank : p.isBlank with
    | true =>
      exact .inl ⟨.inr (isBlank_iff.mp hblank), by simp [isRoot, isAboveInit, hnumber, hblank]⟩
    | false =>
      have hsome : ¬ ∀ c ∈ p.text.toList, Text.isBlank c = true := by
        rw [← isBlank_iff, hblank]
        exact Bool.false_ne_true
      exact .inr (.inr ⟨.inr ⟨number?_eq_none_iff.mp hnumber, hsome⟩,
        by simp [isRoot, isAboveInit, hnumber, hblank]⟩)
  | some n =>
    have hn := number?_eq_some_iff.mp hnumber
    rcases Nat.lt_trichotomy n 1 with hzero | rfl | habove
    · obtain rfl := Nat.lt_one_iff.mp hzero
      exact .inl ⟨.inl hn, by simp [isRoot, isAboveInit, hnumber]⟩
    · exact .inr (.inl ⟨hn, by simp [isRoot, isAboveInit, hnumber]⟩)
    · have hkind : n ≠ 0 ∧ n ≠ 1 := by omega
      exact .inr (.inr ⟨.inl ⟨n, habove, hn⟩, by simp [isRoot, isAboveInit, hnumber, hkind, habove]⟩)

/-- **Ids are in a strict total order that agrees with equality.** Ids with a number are below all
others, by their numbers, and where numbers do not tell two texts apart their order does. Every id is
of one of three kinds: no process, the first one, or one above it. -/
theorem cmp_strictly_orders :
    IsStrictTotalOrder Pid (fun p q => p.cmp q = .lt) ∧
      (∀ p q : Pid, (p.cmp q = .lt ↔ p.Precedes q) ∧ (p.cmp q = .eq ↔ p.text = q.text) ∧
        (p.cmp q = .gt ↔ q.Precedes p)) ∧
      ∀ p : Pid, (∀ n, p.number? = some n ↔ p.Numbered n) ∧
        (p.isRoot = true ∧ p.number? ≠ some 1 ∧ p.isAboveInit = false ∨
          p.isRoot = false ∧ p.number? = some 1 ∧ p.isAboveInit = false ∨
          p.isRoot = false ∧ p.number? ≠ some 1 ∧ p.isAboveInit = true) := by
  refine ⟨isStrictTotalOrder, fun p q => ⟨cmp_eq_lt_iff, cmp_eq_eq_iff, cmp_eq_gt_iff⟩,
    fun p => ⟨fun n => number?_eq_some_iff, ?_⟩⟩
  rcases kind_cases p with ⟨-, hroot⟩ | ⟨-, hfirst⟩ | ⟨-, habove⟩
  · exact .inl hroot
  · exact .inr (.inl hfirst)
  · exact .inr (.inr habove)

-- Spellings of seven in the order of their texts, then eight; a number beyond 64 bits is a mere text.
example :
    (["abc", "7", "18446744073709551616", "8", "+7", "", " 7", "007"].map Pid.mk).foldr insert [] =
      [" 7", "+7", "007", "7", "8", "", "18446744073709551616", "abc"].map Pid.mk := by decide

end SoftwareCensus.Pid
