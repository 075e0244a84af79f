import Mathlib.Data.List.TakeDrop
import SoftwareCensus.Document.Json.Reader
import SoftwareCensus.Proofs.Document.Presented

/-!
# Reading JSON Numbers

A number that is read is an integer of 64 bits or a finite double. How it is read is settled by its
own characters: what may come after a value, which is a comma, a closing bracket or nothing, does
not change it. The decimal digits of an integer of 64 bits are read as that integer.

## Main results

* `isJson_of_readNumber` : a number that is read is JSON
* `readNumber_append` : a number is read in the same way whatever comes after it
* `readNumber_toDigits` : the digits of an integer are read as that integer
-/

namespace SoftwareCensus.Json

open Numeral

/-! ## What is read is JSON -/

section Read

variable {negative : Bool} {n : Nat} {shift : Int} {cs rest : List Char} {x : Binary64}

/-- Digits are taken only as long as their number fits into 64 bits. -/
theorem takeSignificand_le {taken : Nat} (hn : (n : Int) ≤ maxUInt64) (cs : List Char) :
    ((takeSignificand n taken cs).1 : Int) ≤ maxUInt64 := by
  fun_induction takeSignificand n taken cs with
  | case1 => exact hn
  -- A digit is taken if the number with it still fits.
  | case2 n taken c rest hc ih =>
    simp only [Bool.and_eq_true, decide_eq_true_eq] at hc
    exact ih hc.2
  | case3 => exact hn

/-- A decimal that can be scaled at all gives a finite double. -/
theorem isFinite_of_map_scaled {d : Decimal} (h : d.scaled.map (·, cs) = some (x, rest)) :
    x.isFinite = true := by
  obtain ⟨y, hy, hxy⟩ := Option.map_eq_some_iff.mp h
  cases hxy
  exact Decimal.isFinite_of_scaled hy

/-- A double with an exponent is finite. -/
theorem isFinite_of_readExponentDigits {down : Bool}
    (h : readExponentDigits negative n shift down cs = some (x, rest)) : x.isFinite = true := by
  unfold readExponentDigits at h
  simp only at h
  split at h
  -- An exponent without digits.
  case isTrue => cases h
  case isFalse =>
    split at h
    case isTrue =>
      -- An exponent beyond all bounds is refused, or makes the number zero.
      split at h
      case isTrue => cases h
      case isFalse =>
        cases h
        cases negative <;> decide +kernel
    case isFalse => exact isFinite_of_map_scaled h

/-- The sign of the exponent only says which way the point moves. -/
theorem isFinite_of_readExponent (h : readExponent negative n shift cs = some (x, rest)) :
    x.isFinite = true := by
  unfold readExponent at h
  split at h <;> exact isFinite_of_readExponentDigits h

/-- A double without an exponent is finite, too. -/
theorem isFinite_of_readDoubleEnd (h : readDoubleEnd negative n shift cs = some (x, rest)) :
    x.isFinite = true := by
  unfold readDoubleEnd at h
  split at h
  -- An exponent is marked by either letter.
  case h_1 | h_2 => exact isFinite_of_readExponent h
  case h_3 => exact isFinite_of_map_scaled h

/-- A fraction has digits, and ends as a double does. -/
theorem isFinite_of_readFraction (h : readFraction negative n shift cs = some (x, rest)) :
    x.isFinite = true := by
  unfold readFraction at h
  simp only at h
  split at h
  case isTrue => cases h
  case isFalse => exact isFinite_of_readDoubleEnd h

/-- The whole part of a number fits into 64 bits. -/
theorem le_of_readWhole (h : readWhole cs = some (n, rest)) : (n : Int) ≤ maxUInt64 := by
  unfold readWhole at h
  split at h
  -- A zero with something behind it, a zero alone, other digits, and what is no digit.
  case h_1 =>
    split at h <;> cases h
    decide
  case h_2 =>
    cases h
    decide
  case h_3 =>
    split at h <;> cases h
    have hzero : ((0 : Nat) : Int) ≤ maxUInt64 := by decide
    exact takeSignificand_le hzero (_ :: _)
  case h_4 => cases h

/-- An integer that fits stays an integer, and one that does not becomes a finite double. -/
theorem isJson_of_integer {s : Source} (room : Nat) (hn : (n : Int) ≤ maxUInt64)
    (h : integer negative n = some s) : s.IsJson room := by
  unfold integer at h
  split at h
  -- Without a minus it is the whole part itself.
  case isTrue =>
    cases h
    exact fits64_natCast.mpr hn
  case isFalse =>
    split at h
    -- A minus before a zero, or before more than 64 bits with a sign can hold.
    case isTrue =>
      obtain ⟨x, hx, rfl⟩ := Option.map_eq_some_iff.mp h
      exact Decimal.isFinite_of_scaled hx
    case isFalse hrange =>
      cases h
      simp only [Bool.or_eq_true, decide_eq_true_eq, not_or, not_lt] at hrange
      have hhigh : -(n : Int) ≤ maxUInt64 := by
        simp only [maxUInt64]
        omega
      exact fits64_iff.mpr ⟨hrange.2, hhigh⟩

/-- Doubles are JSON if they are finite. -/
theorem isJson_of_asDouble {r : Option (Binary64 × List Char)} {s : Source} (room : Nat)
    (hfinite : ∀ x tail, r = some (x, tail) → x.isFinite = true)
    (h : asDouble r = some (s, rest)) : s.IsJson room := by
  obtain ⟨⟨x, tail⟩, hx, hs⟩ := Option.map_eq_some_iff.mp h
  cases hs
  exact hfinite x _ hx

theorem isJson_of_readNumber {s : Source} (room : Nat)
    (h : readNumber negative cs = some (s, rest)) : s.IsJson room := by
  obtain ⟨⟨n, digits⟩, hwhole, hend⟩ := Option.bind_eq_some_iff.mp h
  have hn := le_of_readWhole hwhole
  simp only at hend
  unfold readAfterWhole at hend
  split at hend
  -- What comes after the whole part: a point, an exponent, or the end of the number.
  case h_1 => exact isJson_of_asDouble room (fun _ _ => isFinite_of_readFraction) hend
  case h_2 | h_3 => exact isJson_of_asDouble room (fun _ _ => isFinite_of_readExponent) hend
  case h_4 =>
    split at hend
    -- All digits were taken, or some were left out and the number is a double.
    case isTrue =>
      obtain ⟨y, hy, hs⟩ := Option.map_eq_some_iff.mp hend
      cases hs
      exact isJson_of_integer room hn hy
    case isFalse => exact isJson_of_asDouble room (fun _ _ => isFinite_of_map_scaled) hend

end Read

/-! ## What comes after a number -/

/-- Whether a text ends here or goes on with what may come after a value. -/
def Stops (rest : List Char) : Prop :=
  rest = [] ∨ ∃ c tail, rest = c :: tail ∧ c ∈ [',', ']', '}']

/-- What is read is followed by more text. -/
def before {α : Type} (rest : List Char) (r : α × List Char) : α × List Char :=
  (r.1, r.2 ++ rest)

section Followed

variable {negative : Bool} {n : Nat} {shift : Int} {rest : List Char}

/-- No digit comes after a value. -/
theorem Stops.isDigit_eq_false (h : Stops rest) : ∀ c ∈ rest.head?, c.isDigit = false := by
  rcases h with rfl | ⟨c, tail, rfl, hc⟩
  · intro c hc
    cases hc
  · intro d hd
    obtain rfl := Option.some.inj hd
    simp only [List.mem_cons, List.not_mem_nil, or_false] at hc
    rcases hc with rfl | rfl | rfl <;> rfl

/-- What comes after a value does not change how a text begins. -/
theorem Stops.append_ne_cons (h : Stops rest) {cs : List Char} {c : Char}
    (hcs : ∀ tail, cs ≠ c :: tail) (hc : c ∉ [',', ']', '}']) :
    ∀ tail, cs ++ rest ≠ c :: tail := by
  intro tail heq
  cases cs with
  -- The text ends, so it goes on with what comes after the value.
  | nil =>
    rcases h with rfl | ⟨d, _, rfl, hd⟩
    · cases heq
    · obtain rfl := (List.cons.inj heq).1
      exact hc hd
  | cons d ds => exact hcs ds (congrArg (· :: ds) (List.cons.inj heq).1)

/-- The digits of a value end where the value does. -/
theorem spanDigits_append (h : Stops rest) (cs : List Char) :
    spanDigits (cs ++ rest) = before rest (spanDigits cs) := by
  have hspan : ∀ cs : List Char,
      spanDigits cs = (cs.takeWhile Char.isDigit, cs.dropWhile Char.isDigit) :=
    fun cs => List.span_eq_takeWhile_dropWhile _ cs
  rw [hspan, hspan, before]
  -- By induction on the text; what comes after it matters only at its end.
  induction cs with
  | nil =>
    rcases h with rfl | ⟨c, tail, rfl, hc⟩
    · rfl
    · have hdigit := Stops.isDigit_eq_false (Or.inr ⟨c, tail, rfl, hc⟩) c rfl
      simp [hdigit]
  | cons c cs ih =>
    simp only [Prod.mk.injEq] at ih
    cases hc : c.isDigit with
    | true => simp [hc, ih.1, ih.2]
    | false => simp [hc]

/-- The digits that are taken are the same whatever comes after the value. -/
theorem takeSignificand_append (h : Stops rest) (n taken : Nat) (cs : List Char) :
    takeSignificand n taken (cs ++ rest) =
      ((takeSignificand n taken cs).1, before rest (takeSignificand n taken cs).2) := by
  fun_induction takeSignificand n taken cs with
  -- The end of the text, a digit that fits, and a character that is not taken.
  | case1 n taken =>
    rcases h with rfl | ⟨c, tail, rfl, hc⟩
    · rfl
    · have hdigit := Stops.isDigit_eq_false (Or.inr ⟨c, tail, rfl, hc⟩) c rfl
      simp [takeSignificand, hdigit, before]
  | case2 n taken c cs hc ih =>
    rw [List.cons_append, takeSignificand, if_pos hc, ih]
  | case3 n taken c cs hc =>
    rw [List.cons_append, takeSignificand, if_neg hc]
    rfl

/-- The digits of an exponent are read in the same way whatever comes after the value. -/
theorem readExponentDigits_append (h : Stops rest) (down : Bool) (cs : List Char) :
    readExponentDigits negative n shift down (cs ++ rest) =
      (readExponentDigits negative n shift down cs).map (before rest) := by
  cases hspan : spanDigits cs with
  | mk ds tail =>
    simp only [readExponentDigits, spanDigits_append h, hspan, before]
    -- The two sides decide alike, as they see the same digits.
    rw [apply_ite (Option.map (before rest)), apply_ite (Option.map (before rest)),
      apply_ite (Option.map (before rest)), Option.map_map]
    rfl

/-- An exponent without a sign is read from its digits. -/
theorem readExponent_of_unsigned {cs : List Char} (hplus : ∀ tail, cs ≠ '+' :: tail)
    (hminus : ∀ tail, cs ≠ '-' :: tail) :
    readExponent negative n shift cs = readExponentDigits negative n shift false cs := by
  unfold readExponent
  split
  · exact absurd rfl (hplus _)
  · exact absurd rfl (hminus _)
  · rfl

theorem readExponent_append (h : Stops rest) (cs : List Char) :
    readExponent negative n shift (cs ++ rest) =
      (readExponent negative n shift cs).map (before rest) := by
  -- A plus, a minus or no sign; the last has to stay so when more text follows.
  by_cases hplus : ∃ tail, cs = '+' :: tail
  · obtain ⟨tail, rfl⟩ := hplus
    exact readExponentDigits_append h false tail
  by_cases hminus : ∃ tail, cs = '-' :: tail
  · obtain ⟨tail, rfl⟩ := hminus
    exact readExponentDigits_append h true tail
  rw [not_exists] at hplus hminus
  have hplus' : ∀ tail, cs ++ rest ≠ '+' :: tail := h.append_ne_cons hplus (by decide)
  have hminus' : ∀ tail, cs ++ rest ≠ '-' :: tail := h.append_ne_cons hminus (by decide)
  rw [readExponent_of_unsigned hplus hminus, readExponent_of_unsigned hplus' hminus',
    readExponentDigits_append h]

/-- Without an exponent the double is what was read so far. -/
theorem readDoubleEnd_of_unmarked {cs : List Char} (hlower : ∀ tail, cs ≠ 'e' :: tail)
    (hupper : ∀ tail, cs ≠ 'E' :: tail) :
    readDoubleEnd negative n shift cs = (Decimal.mk negative n shift).scaled.map (·, cs) := by
  unfold readDoubleEnd
  split
  · exact absurd rfl (hlower _)
  · exact absurd rfl (hupper _)
  · rfl

theorem readDoubleEnd_append (h : Stops rest) (cs : List Char) :
    readDoubleEnd negative n shift (cs ++ rest) =
      (readDoubleEnd negative n shift cs).map (before rest) := by
  -- Either letter, or none; again what follows must not be taken for one.
  by_cases hlower : ∃ tail, cs = 'e' :: tail
  · obtain ⟨tail, rfl⟩ := hlower
    exact readExponent_append h tail
  by_cases hupper : ∃ tail, cs = 'E' :: tail
  · obtain ⟨tail, rfl⟩ := hupper
    exact readExponent_append h tail
  rw [not_exists] at hlower hupper
  have hlower' : ∀ tail, cs ++ rest ≠ 'e' :: tail := h.append_ne_cons hlower (by decide)
  have hupper' : ∀ tail, cs ++ rest ≠ 'E' :: tail := h.append_ne_cons hupper (by decide)
  rw [readDoubleEnd_of_unmarked hlower hupper, readDoubleEnd_of_unmarked hlower' hupper',
    Option.map_map]
  rfl

theorem readFraction_append (h : Stops rest) (cs : List Char) :
    readFraction negative n shift (cs ++ rest) =
      (readFraction negative n shift cs).map (before rest) := by
  cases hdigits : takeSignificand n 0 cs with
  | mk m taken =>
    obtain ⟨taken, tail⟩ := taken
    cases hspan : spanDigits tail with
    | mk extra tail' =>
      simp only [readFraction, takeSignificand_append h, hdigits, spanDigits_append h, before,
        hspan]
      -- A fraction without digits is refused on both sides.
      split
      · rfl
      · exact readDoubleEnd_append h _

/-- Digits that begin with another one than zero are read on. -/
theorem readWhole_of_ne_zero {c : Char} (hc : c ≠ '0') (tail : List Char) :
    readWhole (c :: tail) =
      if c.isDigit then
        some ((takeSignificand 0 0 (c :: tail)).1, (takeSignificand 0 0 (c :: tail)).2.2)
      else none := by
  rw [readWhole]
  · exact fun _ _ heq _ => hc heq
  · exact fun heq _ => hc heq

/-- The whole part is read in the same way whatever comes after the value. -/
theorem readWhole_append (h : Stops rest) (cs : List Char) :
    readWhole (cs ++ rest) = (readWhole cs).map (before rest) := by
  have hstop : ∀ d tail, rest = d :: tail → d.isDigit = false := by
    intro d tail hrest
    exact h.isDigit_eq_false d (by rw [hrest]; rfl)
  cases cs with
  | nil =>
    -- Nothing is there to be read, and what comes after the value is no digit.
    rcases h with rfl | ⟨d, tail, rfl, hd⟩
    · rfl
    · have hzero : d ≠ '0' := fun heq => absurd (heq ▸ hd) (by decide)
      rw [List.nil_append, readWhole_of_ne_zero hzero, hstop d tail rfl]
      rfl
  | cons c cs =>
    by_cases hc : c = '0'
    · -- A zero stands alone, so it matters what comes next.
      obtain rfl := hc
      cases cs with
      | nil =>
        rcases h with rfl | ⟨d, tail, rfl, hd⟩
        · rfl
        · simp [readWhole, hstop d tail rfl, before]
      | cons d ds =>
        rw [List.cons_append, List.cons_append, readWhole, readWhole,
          apply_ite (Option.map (before rest))]
        rfl
    -- Any other first character is a digit on both sides or on neither.
    · rw [List.cons_append, readWhole_of_ne_zero hc, readWhole_of_ne_zero hc, ← List.cons_append,
        takeSignificand_append h, apply_ite (Option.map (before rest))]
      rfl

/-- What follows a double is not looked at. -/
theorem asDouble_before (r : Option (Binary64 × List Char)) :
    asDouble (r.map (before rest)) = (asDouble r).map (before rest) := by
  cases r <;> rfl

/-- A number without a point and an exponent is an integer if all its digits were taken. -/
theorem readAfterWhole_of_plain {dropped : Nat} {cs : List Char}
    (hpoint : ∀ tail, cs ≠ '.' :: tail) (hlower : ∀ tail, cs ≠ 'e' :: tail)
    (hupper : ∀ tail, cs ≠ 'E' :: tail) :
    readAfterWhole negative n dropped cs =
      if dropped == 0 then (integer negative n).map (·, cs)
      else asDouble ((Decimal.mk negative n dropped).scaled.map (·, cs)) := by
  unfold readAfterWhole
  split
  · exact absurd rfl (hpoint _)
  · exact absurd rfl (hlower _)
  · exact absurd rfl (hupper _)
  · rfl

theorem readAfterWhole_append (h : Stops rest) (dropped : Nat) (cs : List Char) :
    readAfterWhole negative n dropped (cs ++ rest) =
      (readAfterWhole negative n dropped cs).map (before rest) := by
  -- A point, either letter, or none of them.
  by_cases hpoint : ∃ tail, cs = '.' :: tail
  · obtain ⟨tail, rfl⟩ := hpoint
    exact (congrArg asDouble (readFraction_append h tail)).trans (asDouble_before _)
  by_cases hlower : ∃ tail, cs = 'e' :: tail
  · obtain ⟨tail, rfl⟩ := hlower
    exact (congrArg asDouble (readExponent_append h tail)).trans (asDouble_before _)
  by_cases hupper : ∃ tail, cs = 'E' :: tail
  · obtain ⟨tail, rfl⟩ := hupper
    exact (congrArg asDouble (readExponent_append h tail)).trans (asDouble_before _)
  rw [not_exists] at hpoint hlower hupper
  have hpoint' : ∀ tail, cs ++ rest ≠ '.' :: tail := h.append_ne_cons hpoint (by decide)
  have hlower' : ∀ tail, cs ++ rest ≠ 'e' :: tail := h.append_ne_cons hlower (by decide)
  have hupper' : ∀ tail, cs ++ rest ≠ 'E' :: tail := h.append_ne_cons hupper (by decide)
  rw [readAfterWhole_of_plain hpoint hlower hupper, readAfterWhole_of_plain hpoint' hlower' hupper',
    apply_ite (Option.map (before rest)), ← asDouble_before, Option.map_map, Option.map_map]
  rfl

/-- **A number is read in the same way whatever comes after it.** -/
theorem readNumber_append (h : Stops rest) (cs : List Char) :
    readNumber negative (cs ++ rest) = (readNumber negative cs).map (before rest) := by
  rw [readNumber, readNumber, readWhole_append h]
  cases readWhole cs with
  | none => rfl
  | some start =>
    obtain ⟨n, tail⟩ := start
    show readAfterWhole negative n (spanDigits (tail ++ rest)).1.length
      (spanDigits (tail ++ rest)).2 = _
    -- The digits that did not fit end where the number ends.
    rw [spanDigits_append h]
    exact readAfterWhole_append h _ _

end Followed

/-- A number begins with a digit; its sign was read before. -/
theorem exists_digit_of_readNumber {negative : Bool} {cs : List Char} {r : Source × List Char}
    (h : readNumber negative cs = some r) : ∃ c tail, cs = c :: tail ∧ c.isDigit = true := by
  obtain ⟨start, hstart, -⟩ := Option.bind_eq_some_iff.mp h
  cases cs with
  | nil => cases hstart
  | cons c tail =>
    refine ⟨c, tail, rfl, ?_⟩
    -- A zero is a digit, and of other characters only digits are read on.
    by_cases hc : c = '0'
    · rw [hc]
      rfl
    · rw [readWhole_of_ne_zero hc] at hstart
      split at hstart
      case isTrue hdigit => exact hdigit
      case isFalse => cases hstart

/-! ## Integers -/

/-- Digits are taken as far as the number that they spell fits. -/
theorem takeSignificand_eq_ofDigitChars {ds : List Char} (hds : ∀ c ∈ ds, c.isDigit = true) :
    ∀ n taken, (Nat.ofDigitChars 10 ds n : Int) ≤ maxUInt64 →
      takeSignificand n taken ds = (Nat.ofDigitChars 10 ds n, taken + ds.length, []) := by
  -- By induction on the digits, over the number and the count so far.
  induction ds with
  | nil =>
    intro n taken _
    rfl
  | cons c rest ih =>
    intro n taken hfits
    obtain ⟨hc, hrest⟩ := List.forall_mem_cons.mp hds
    have hcons : Nat.ofDigitChars 10 (c :: rest) n =
        Nat.ofDigitChars 10 rest (10 * n + digitValue c) := Nat.ofDigitChars_cons
    rw [hcons] at hfits ⊢
    -- The digits still to come only make the number greater, so it fits so far.
    have hgrows : 10 * n + digitValue c ≤ Nat.ofDigitChars 10 rest (10 * n + digitValue c) := by
      rw [Nat.ofDigitChars_eq_ofDigitChars_zero]
      have hpow : 1 ≤ 10 ^ rest.length := Nat.one_le_pow _ _ (by decide)
      exact le_add_right (Nat.le_mul_of_pos_left _ hpow)
    have hstep : (c.isDigit && decide ((10 * n + digitValue c : Int) ≤ maxUInt64)) = true := by
      simp only [hc, Bool.true_and, decide_eq_true_eq]
      exact le_trans (by exact_mod_cast hgrows) hfits
    rw [takeSignificand, if_pos hstep, ih hrest _ _ hfits]
    simp [Nat.add_assoc, Nat.add_comm 1]

/-- The digits of a positive number do not begin with a zero. -/
theorem exists_toDigits_eq_cons : ∀ n : Nat, 0 < n →
    ∃ c tail, Nat.toDigits 10 n = c :: tail ∧ c ≠ '0' := by
  intro n
  induction n using Nat.strong_induction_on with
  | _ n ih =>
    intro hn
    rw [Nat.toDigits_eq_if (by decide)]
    split
    -- One digit.
    case isTrue hsmall =>
      have hnonzero : ∀ m < 10, 0 < m → m.digitChar ≠ '0' := by decide
      exact ⟨n.digitChar, [], rfl, hnonzero n hsmall hn⟩
    case isFalse hlarge =>
      -- The last digit is put behind those of the quotient, which is positive.
      obtain ⟨c, tail, hdigits, hc⟩ := ih (n / 10) (by omega) (by omega)
      exact ⟨c, tail ++ [(n % 10).digitChar], by rw [hdigits]; rfl, hc⟩

/-- **The digits of a number are read as that number.** -/
theorem readWhole_toDigits {n : Nat} (h : (n : Int) ≤ maxUInt64) :
    readWhole (Nat.toDigits 10 n) = some (n, []) := by
  rcases Nat.eq_zero_or_pos n with rfl | hpos
  · rfl
  -- The digits begin with another one than zero, so they are read on to the last.
  · obtain ⟨c, tail, hdigits, hc⟩ := exists_toDigits_eq_cons n hpos
    have hall : ∀ d ∈ Nat.toDigits 10 n, d.isDigit = true :=
      fun d hd => Nat.isDigit_of_mem_toDigits (by decide) (by decide) hd
    have hvalue : Nat.ofDigitChars 10 (Nat.toDigits 10 n) 0 = n := Nat.ofDigitChars_ten_toDigits
    have htake := takeSignificand_eq_ofDigitChars hall 0 0 (by rw [hvalue]; exact h)
    rw [hvalue] at htake
    rw [hdigits] at htake hall ⊢
    rw [readWhole_of_ne_zero hc, if_pos (hall c (List.mem_cons_self ..)), htake]

/-- The digits of a number are read as an integer with the sign before them. -/
theorem readNumber_toDigits {negative : Bool} {n : Nat} {rest : List Char}
    (h : (n : Int) ≤ maxUInt64) (hrest : Stops rest) :
    readNumber negative (Nat.toDigits 10 n ++ rest) = (integer negative n).map (·, rest) := by
  have hread : readNumber negative (Nat.toDigits 10 n) = (integer negative n).map (·, []) := by
    rw [readNumber, readWhole_toDigits h]
    rfl
  rw [readNumber_append hrest, hread, Option.map_map]
  rfl

end SoftwareCensus.Json
