import Mathlib.Data.List.DropRight
import SoftwareCensus.Text.Category

/-!
# Trimming

White space is taken off both ends of a text. What is left has none at its ends, and a text that has
none there stays as it is. So do the digits of a number, and a text in quotes.

## Main results

* `trimList_trimList` : a text that was trimmed stays as it is
* `trimList_eq_self` : so does one without white space at its ends
* `trimList_between`, `exists_between_trimList` : white space is taken off, and nothing else
-/

namespace SoftwareCensus.Text

/-- A text that was trimmed stays as it is. -/
theorem trimList_trimList (cs : List Char) : trimList (trimList cs) = trimList cs := by
  have hfront : (trimList cs).dropWhile isBlank = trimList cs := by
    -- The end is cut off a list that begins with no blank, so what is left does not either.
    have hbegin := List.dropWhile_eq_self_iff.mp (List.dropWhile_idempotent isBlank cs)
    refine List.dropWhile_eq_self_iff.mpr ?_
    intro hlength
    have hcut : trimList cs <+: cs.dropWhile isBlank := List.rdropWhile_prefix isBlank _
    have hlong := hlength.trans_le hcut.length_le
    rw [hcut.getElem hlength]
    exact hbegin hlong
  show List.rdropWhile isBlank ((trimList cs).dropWhile isBlank) = _
  rw [hfront]
  exact List.rdropWhile_idempotent isBlank _

theorem trim_trim (s : String) : trim (trim s) = trim s := by
  rw [trim, trim, String.toList_ofList, trimList_trimList]

/-- A text without white space at its ends stays as it is. -/
theorem trimList_eq_self {cs : List Char} (hfirst : ∀ c ∈ cs.head?, isBlank c = false)
    (hlast : ∀ c ∈ cs.getLast?, isBlank c = false) : trimList cs = cs := by
  have hfront : cs.dropWhile isBlank = cs := by
    apply List.dropWhile_eq_self_iff.mpr
    intro hlength
    simp [hfirst cs[0] (by simp [List.head?_eq_getElem?, hlength])]
  have hback : cs.rdropWhile isBlank = cs := by
    apply List.rdropWhile_eq_self_iff.mpr
    intro hne
    simp [hlast (cs.getLast hne) (List.getLast?_eq_some_getLast hne)]
  show List.rdropWhile isBlank (cs.dropWhile isBlank) = cs
  rw [hfront, hback]

/-- White space in front of a text is taken off with what the text has. -/
theorem trimList_cons_of_isBlank {c : Char} (h : isBlank c = true) (cs : List Char) :
    trimList (c :: cs) = trimList cs := by
  rw [trimList, List.dropWhile_cons_of_pos h, trimList]

/-- So is white space behind it. -/
theorem trimList_concat_of_isBlank {c : Char} (h : isBlank c = true) (cs : List Char) :
    trimList (cs ++ [c]) = trimList cs := by
  show List.rdropWhile isBlank ((cs ++ [c]).dropWhile isBlank) = List.rdropWhile isBlank _
  rw [List.dropWhile_append]
  split
  case isTrue hblank =>
    -- The text is nothing but white space.
    rw [List.isEmpty_iff.mp hblank, List.dropWhile_cons_of_pos h, List.dropWhile_nil]
  case isFalse => exact List.rdropWhile_concat_pos isBlank _ _ h

/-- White space on both sides is taken off with what the text has. -/
theorem trimList_between {before after : List Char} (hbefore : ∀ c ∈ before, isBlank c = true)
    (hafter : ∀ c ∈ after, isBlank c = true) (cs : List Char) :
    trimList (before ++ cs ++ after) = trimList cs := by
  induction before with
  | nil =>
    induction after using List.reverseRecOn with
    | nil => rw [List.append_nil, List.nil_append]
    | append_singleton after c ih =>
      simp only [List.forall_mem_append, List.forall_mem_singleton] at hafter
      rw [← List.append_assoc, trimList_concat_of_isBlank hafter.2, ih hafter.1]
  | cons c before ih =>
    simp only [List.forall_mem_cons] at hbefore
    rw [List.cons_append, List.cons_append, trimList_cons_of_isBlank hbefore.1, ih hbefore.2]

/-- What is taken off is white space. -/
theorem exists_between_trimList (cs : List Char) :
    ∃ before after, (∀ c ∈ before, isBlank c = true) ∧ (∀ c ∈ after, isBlank c = true) ∧
      cs = before ++ trimList cs ++ after := by
  refine ⟨cs.takeWhile isBlank, (cs.dropWhile isBlank).rtakeWhile isBlank,
    fun c hc => List.mem_takeWhile_imp hc, fun c hc => List.mem_rtakeWhile_imp hc, ?_⟩
  show cs = _ ++ (cs.dropWhile isBlank).rdropWhile isBlank ++ _
  rw [List.append_assoc, List.rdropWhile_append_rtakeWhile, List.takeWhile_append_dropWhile]

/-- Nothing is left of white space only. -/
theorem trimList_eq_nil_iff {cs : List Char} :
    trimList cs = [] ↔ ∀ c ∈ cs, isBlank c = true := by
  constructor
  · intro h
    obtain ⟨before, after, hbefore, hafter, hcs⟩ := exists_between_trimList cs
    rw [h, List.append_nil] at hcs
    rw [hcs, List.forall_mem_append]
    exact ⟨hbefore, hafter⟩
  · intro h
    have htrim := trimList_between h (List.forall_mem_nil _) []
    rwa [List.append_nil, List.append_nil] at htrim

/-- A text without any white space stays as it is. -/
theorem trimList_of_forall {cs : List Char} (h : ∀ c ∈ cs, isBlank c = false) : trimList cs = cs :=
  trimList_eq_self (fun c hc => h c (List.mem_of_mem_head? hc))
    fun c hc => h c (List.mem_of_mem_getLast? hc)

theorem trim_eq_self {s : String} (h : ∀ c ∈ s.toList, isBlank c = false) : trim s = s := by
  rw [trim, trimList_of_forall h, String.ofList_toList]

theorem not_isBlank_of_isDigit {c : Char} (h : c.isDigit = true) : isBlank c = false := by
  simp only [Char.isDigit, Bool.and_eq_true, decide_eq_true_eq] at h
  have hlow : 48 ≤ c.toNat := UInt32.le_iff_toNat_le.mp h.1
  have hhigh : c.toNat ≤ 57 := UInt32.le_iff_toNat_le.mp h.2
  have hspace : c ≠ ' ' := by
    rintro rfl
    exact absurd hlow (by decide)
  rw [isBlank, if_pos (by omega)]
  simp only [Bool.or_eq_false_iff, beq_eq_false_iff_ne, Bool.and_eq_false_iff,
    decide_eq_false_iff_not]
  exact ⟨hspace, Or.inr (by omega)⟩

theorem isDigit_of_mem_repr {m : Nat} {c : Char} (h : c ∈ m.repr.toList) : c.isDigit = true := by
  rw [Nat.toList_repr] at h
  exact Nat.isDigit_of_mem_toDigits (by decide) (by decide) h

/-- There is no white space in an integer. -/
theorem not_isBlank_of_mem_toString {n : Int} {c : Char} (h : c ∈ (toString n).toList) :
    isBlank c = false := by
  cases n with
  | ofNat m => exact not_isBlank_of_isDigit (isDigit_of_mem_repr h)
  | negSucc m =>
    have hmem : c ∈ ("-" ++ (m + 1).repr).toList := h
    rw [String.toList_append] at hmem
    rcases List.mem_append.mp hmem with hsign | hc
    · obtain rfl := List.mem_singleton.mp hsign
      decide
    · exact not_isBlank_of_isDigit (isDigit_of_mem_repr hc)

end SoftwareCensus.Text
