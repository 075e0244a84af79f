import SoftwareCensus.Numeral.Decimal

/-!
# Spellings of Natural Numbers

A natural number can be written with zeros in front of its digits and with a plus sign. What is read
as a natural number is exactly what spells one, so a text without digits, or with anything besides
them, spells none.

## Main results

* `readNat?_eq_some_iff` : a number is read from its spellings and from nothing else
-/

namespace SoftwareCensus.Numeral

/-- How a natural number can be written. -/
inductive SpellsNat : List Char → Nat → Prop
  | digits {ds : List Char} (hne : ds ≠ []) (hdigits : ∀ c ∈ ds, c.isDigit = true) :
    SpellsNat ds (ofDigits ds)
  | plus {ds : List Char} (hne : ds ≠ []) (hdigits : ∀ c ∈ ds, c.isDigit = true) :
    SpellsNat ('+' :: ds) (ofDigits ds)

variable {cs ds : List Char} {n : Nat}

theorem SpellsNat.isDigit_or_plus (h : SpellsNat cs n) :
    ∀ c ∈ cs, c.isDigit = true ∨ c = '+' := by
  cases h with
  | digits _ hdigits => exact fun c hc => .inl (hdigits c hc)
  | plus _ hdigits =>
    intro c hc
    rcases List.mem_cons.mp hc with rfl | hc
    · exact .inr rfl
    · exact .inl (hdigits c hc)

/-- What is behind the sign is read if there is something and all of it is digits. -/
private theorem readDigits_eq_some_iff :
    (if ds.isEmpty || !ds.all Char.isDigit then none else some (ofDigits ds)) = some n ↔
      (ds ≠ [] ∧ ∀ c ∈ ds, c.isDigit = true) ∧ ofDigits ds = n := by
  simp only [Option.ite_none_left_eq_some, Option.some.injEq, Bool.or_eq_true, List.isEmpty_iff,
    Bool.not_eq_true', not_or, Bool.not_eq_false, List.all_eq_true, ne_eq]

/-- Digits with no sign in front are read as they stand. -/
theorem readNat?_of_digits (hne : ds ≠ []) (hdigits : ∀ c ∈ ds, c.isDigit = true) :
    readNat? ds = some (ofDigits ds) := by
  have hread := readDigits_eq_some_iff.mpr ⟨⟨hne, hdigits⟩, rfl⟩
  unfold readNat?
  split
  case h_1 rest =>
    -- A plus sign is no digit.
    exact absurd (hdigits '+' (List.mem_cons_self ..)) (by decide)
  case h_2 => exact hread

/-- **A number is read from its spellings** and from nothing else. -/
theorem readNat?_eq_some_iff : readNat? cs = some n ↔ SpellsNat cs n := by
  constructor
  · intro h
    unfold readNat? at h
    split at h
    case h_1 rest =>
      obtain ⟨⟨hne, hdigits⟩, rfl⟩ := readDigits_eq_some_iff.mp h
      exact .plus hne hdigits
    case h_2 =>
      obtain ⟨⟨hne, hdigits⟩, rfl⟩ := readDigits_eq_some_iff.mp h
      exact .digits hne hdigits
  · intro h
    cases h with
    | digits hne hdigits => exact readNat?_of_digits hne hdigits
    | plus hne hdigits => exact readDigits_eq_some_iff.mpr ⟨⟨hne, hdigits⟩, rfl⟩

end SoftwareCensus.Numeral
