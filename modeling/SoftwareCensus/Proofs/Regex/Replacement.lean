import Mathlib.Algebra.Group.Nat.Even
import Mathlib.Data.List.DropRight
import SoftwareCensus.Proofs.Numeral.Naturals
import SoftwareCensus.Regex.Replacement

/-!
# Replacement Texts in Two Forms

A replacement in backslash form says what is written for a match: a backslash and digits stand for a
group by number, and `\g<name>` for one by name or number; of two backslashes one is written, and
everything else stands for itself. It is expanded in a roundabout way, by turning it into dollar form
first. Every fragment of the dollar form that this puts out ends where it ends whatever comes behind
it: a dollar sign is doubled and a group is in braces. So no two fragments are read as one.

## Main results

* `pieces_dollarForm_literal` up to `pieces_dollarForm_alone` : what each part of the backslash form
  is read as in the end
* `expand_dollarForm` : what is written is what the backslash form says
-/

namespace SoftwareCensus.Regex

open Numeral

/-! ## The backslash form -/

/-- The text of the group that is called by a name or a number, if it is there and took part. -/
def Matcher.called? (m : Matcher) (found : Match) (name : List Char) : Option String :=
  match readNat? name with
  | some n => found.group? n
  | none => (m.groupNumber? (String.ofList name)).bind found.group?

/-- What a text in backslash form writes for a match. -/
inductive WritesFor (m : Matcher) (found : Match) : List Char → String → Prop
  | nil : WritesFor m found [] ""
  | literal {c : Char} {rest : List Char} {out : String} (hc : c ≠ '\\')
    (hrest : WritesFor m found rest out) :
    WritesFor m found (c :: rest) (String.singleton c ++ out)
  | doubled {rest : List Char} {out : String} (hrest : WritesFor m found rest out) :
    WritesFor m found ('\\' :: '\\' :: rest) ("\\" ++ out)
  /-- All digits behind a backslash belong to the number. -/
  | numbered {digits rest : List Char} {out : String} (hne : digits ≠ [])
    (hdigits : ∀ c ∈ digits, c.isDigit = true) (hend : ∀ c ∈ rest.head?, c.isDigit = false)
    (hrest : WritesFor m found rest out) :
    WritesFor m found ('\\' :: (digits ++ rest))
      ((found.group? (ofDigits digits)).getD "" ++ out)
  | named {name rest : List Char} {out : String} (hname : '>' ∉ name)
    (hrest : WritesFor m found rest out) :
    WritesFor m found ('\\' :: 'g' :: '<' :: (name ++ '>' :: rest))
      ((m.called? found name).getD "" ++ out)
  /-- A backslash that begins none of these stands for itself. -/
  | alone {rest : List Char} {out : String}
    (hnext : ∀ c ∈ rest.head?, c ≠ '\\' ∧ c.isDigit = false)
    (hname : ∀ name, rest ≠ 'g' :: '<' :: name) (hrest : WritesFor m found rest out) :
    WritesFor m found ('\\' :: rest) ("\\" ++ out)

/-- How many backslashes a text ends with. -/
def endingBackslashes (cs : List Char) : Nat := (cs.rtakeWhile (· == '\\')).length

/-- Every group that is called by name has its name closed, and there is no closing brace in it. A
backslash behind an odd number of others is the second one of a pair and calls nothing. -/
def NamesClosed (cs : List Char) : Prop :=
  ∀ front rest : List Char, cs = front ++ '\\' :: 'g' :: '<' :: rest →
    Even (endingBackslashes front) →
      ∃ name after, rest = name ++ '>' :: after ∧ '>' ∉ name ∧ '}' ∉ name

/-! ## The dollar form that is put out -/

variable {cs rest name digits : List Char} {c : Char}

/-- What is taken off the front ends where something else begins. -/
private theorem takeWhile_append_of_head {p : Char → Bool} (hall : ∀ c ∈ cs, p c = true)
    (hend : ∀ c ∈ rest.head?, p c = false) : (cs ++ rest).takeWhile p = cs := by
  rw [List.takeWhile_append_of_pos hall]
  cases rest with
  | nil => rw [List.takeWhile_nil, List.append_nil]
  | cons c tail => rw [List.takeWhile_cons_of_neg (by simp [hend c rfl]), List.append_nil]

/-- A name ends at the first mark behind it. -/
private theorem takeWhile_to_mark {mark : Char} (h : mark ∉ name) (rest : List Char) :
    (name ++ mark :: rest).takeWhile (· != mark) = name := by
  refine takeWhile_append_of_head (fun c hc => ?_) (by simp)
  exact bne_iff_ne.mpr (ne_of_mem_of_not_mem hc h)

private theorem ne_of_isDigit {c d : Char} (hc : c.isDigit = true) (hd : d.isDigit = false) :
    c ≠ d := by
  rintro rfl
  exact Bool.false_ne_true (hd.symm.trans hc)

theorem dollarForm_literal (hc : c ≠ '\\') (hdollar : c ≠ '$') (rest : List Char) :
    dollarForm (c :: rest) = c :: dollarForm rest := by
  rw [dollarForm] <;> simp [hc, hdollar]

theorem dollarForm_numbered (hne : digits ≠ []) (hdigits : ∀ c ∈ digits, c.isDigit = true)
    (hend : ∀ c ∈ rest.head?, c.isDigit = false) :
    dollarForm ('\\' :: (digits ++ rest)) =
      '$' :: '\x7b' :: (digits ++ '}' :: dollarForm rest) := by
  obtain ⟨d, tail, rfl⟩ := List.exists_cons_of_ne_nil hne
  -- A digit is neither a second backslash nor the letter of a name.
  have hd := hdigits d (List.mem_cons_self ..)
  have hbackslash : d ≠ '\\' := ne_of_isDigit hd rfl
  have hletter : d ≠ 'g' := ne_of_isDigit hd rfl
  have htaken := takeWhile_append_of_head hdigits hend
  rw [List.cons_append, dollarForm, ← List.cons_append, htaken, if_neg (by simp), List.drop_left]
  · simp
  all_goals simp [hbackslash, hletter]

theorem dollarForm_named (hname : '>' ∉ name) (rest : List Char) :
    dollarForm ('\\' :: 'g' :: '<' :: (name ++ '>' :: rest)) =
      '$' :: '\x7b' :: (name ++ '}' :: dollarForm rest) := by
  rw [dollarForm, takeWhile_to_mark hname, ← List.drop_drop, List.drop_left]
  simp

theorem dollarForm_alone (hnext : ∀ c ∈ rest.head?, c ≠ '\\' ∧ c.isDigit = false)
    (hname : ∀ name, rest ≠ 'g' :: '<' :: name) :
    dollarForm ('\\' :: rest) = '\\' :: dollarForm rest := by
  cases rest with
  | nil => simp [dollarForm]
  | cons c tail =>
    obtain ⟨hbackslash, hdigit⟩ := hnext c rfl
    by_cases hletter : c = 'g'
    · -- The letter is put out together with the backslash, and would be put out alone as well.
      subst hletter
      rw [dollarForm, dollarForm_literal (by decide) (by decide)]
      exact fun name h => hname name (by rw [h])
    · rw [dollarForm, if_pos (by simp [hdigit])]
      all_goals simp [hbackslash, hletter]

/-! ## Reading it -/

theorem pieces_literal (hc : c ≠ '$') (rest : List Char) :
    pieces (c :: rest) = .literal c :: pieces rest := by
  rw [pieces] <;> simp [hc]

/-- A group in braces is read as one, whatever stands behind it. -/
theorem pieces_braced (hname : '}' ∉ name) (rest : List Char) :
    pieces ('$' :: '\x7b' :: (name ++ '}' :: rest)) =
      .group (String.ofList name) :: pieces rest := by
  rw [pieces, takeWhile_to_mark hname, if_pos (by simp), ← List.drop_drop, List.drop_left]
  simp

/-- **A character that is no backslash** is written as it is. A dollar sign is one of them. -/
theorem pieces_dollarForm_literal (hc : c ≠ '\\') (rest : List Char) :
    pieces (dollarForm (c :: rest)) = .literal c :: pieces (dollarForm rest) := by
  by_cases hdollar : c = '$'
  · rw [hdollar, dollarForm, pieces]
  · rw [dollarForm_literal hc hdollar, pieces_literal hdollar]

/-- **Of two backslashes** one is written. -/
theorem pieces_dollarForm_doubled (rest : List Char) :
    pieces (dollarForm ('\\' :: '\\' :: rest)) = .literal '\\' :: pieces (dollarForm rest) := by
  rw [dollarForm, pieces_literal (by decide)]

/-- **A backslash and digits** are a group. -/
theorem pieces_dollarForm_numbered (hne : digits ≠ [])
    (hdigits : ∀ c ∈ digits, c.isDigit = true) (hend : ∀ c ∈ rest.head?, c.isDigit = false) :
    pieces (dollarForm ('\\' :: (digits ++ rest))) =
      .group (String.ofList digits) :: pieces (dollarForm rest) := by
  have hbrace : '}' ∉ digits := fun hmem => ne_of_isDigit (hdigits _ hmem) rfl rfl
  rw [dollarForm_numbered hne hdigits hend, pieces_braced hbrace]

/-- **A name in marks** is a group, if there is no closing brace in it. -/
theorem pieces_dollarForm_named (hname : '>' ∉ name) (hbrace : '}' ∉ name) (rest : List Char) :
    pieces (dollarForm ('\\' :: 'g' :: '<' :: (name ++ '>' :: rest))) =
      .group (String.ofList name) :: pieces (dollarForm rest) := by
  rw [dollarForm_named hname, pieces_braced hbrace]

/-- **Any other backslash** is written as it is. -/
theorem pieces_dollarForm_alone (hnext : ∀ c ∈ rest.head?, c ≠ '\\' ∧ c.isDigit = false)
    (hname : ∀ name, rest ≠ 'g' :: '<' :: name) :
    pieces (dollarForm ('\\' :: rest)) = .literal '\\' :: pieces (dollarForm rest) := by
  rw [dollarForm_alone hnext hname, pieces_literal (by decide)]

/-! ## What is written -/

variable {m : Matcher} {found : Match} {out : String} {group : String → String}

/-- The text that one piece writes. -/
def Piece.text (group : String → String) : Piece → String
  | .literal c => String.singleton c
  | .group name => group name

/-- What is put behind a text does not depend on it. -/
private theorem foldl_behind {write : String → Piece → String} {text : Piece → String}
    (hwrite : ∀ out p, write out p = out ++ text p) (ps : List Piece) (before : String) :
    ps.foldl write before = before ++ ps.foldl write "" := by
  induction ps generalizing before with
  | nil => exact String.append_empty.symm
  | cons p ps ih =>
    rw [List.foldl_cons, List.foldl_cons, ih, ih (write "" p), hwrite, hwrite, String.empty_append,
      String.append_assoc]

@[simp]
theorem expandWith_nil : expandWith group [] = "" := rfl

@[simp]
theorem expandWith_cons (p : Piece) (ps : List Piece) :
    expandWith group (p :: ps) = p.text group ++ expandWith group ps := by
  have hwrite : ∀ (out : String) (p : Piece), (match p with
      | .literal c => out.push c
      | .group name => out ++ group name) = out ++ p.text group := by
    intro out p
    cases p with
    | literal c => exact String.push_eq_append c
    | group name => rfl
  have hfirst := hwrite "" p
  rw [String.empty_append] at hfirst
  rw [← hfirst]
  exact foldl_behind hwrite ps _

/-- A name is looked up as a number if it is one. -/
theorem groupText_eq (m : Matcher) (found : Match) (name : List Char) :
    m.groupText found (String.ofList name) = (m.called? found name).getD "" := by
  -- Both take a plus sign off and look for digits; what differs is how they go on without any.
  have hnumber : ∀ ds : List Char,
      (if ds.isEmpty || !ds.all Char.isDigit then m.groupNumber? (String.ofList name)
        else some (ofDigits ds)).bind found.group? =
      match (if ds.isEmpty || !ds.all Char.isDigit then none else some (ofDigits ds)) with
      | some n => found.group? n
      | none => (m.groupNumber? (String.ofList name)).bind found.group? := by
    intro ds
    split <;> rfl
  unfold Matcher.groupText Matcher.called? readNat?
  rw [String.toList_ofList]
  exact congrArg (Option.getD · "") (hnumber _)

theorem called?_digits (hne : digits ≠ []) (hdigits : ∀ c ∈ digits, c.isDigit = true) :
    m.called? found digits = found.group? (ofDigits digits) := by
  -- A name of digits is a number, so no name of a group is looked up.
  rw [Matcher.called?, readNat?_of_digits hne hdigits]

/-! ## Names that are closed -/

/-- Backslashes at the end go on with those before them. -/
theorem endingBackslashes_append_of_forall (hall : ∀ c ∈ cs, c = '\\') (front : List Char) :
    endingBackslashes (front ++ cs) = cs.length + endingBackslashes front := by
  simp only [endingBackslashes, List.rtakeWhile, List.length_reverse, List.reverse_append]
  rw [List.takeWhile_append_of_pos (by simpa using hall), List.length_append, List.length_reverse]

/-- With another character behind it, what is in front does not count. -/
theorem endingBackslashes_append_of_mem (hmem : c ∈ cs) (hc : c ≠ '\\') (front : List Char) :
    endingBackslashes (front ++ cs) = endingBackslashes cs := by
  simp only [endingBackslashes, List.rtakeWhile, List.length_reverse, List.reverse_append]
  -- The count stops at the character, so it is not the whole of the text behind.
  have hshort : (cs.reverse.takeWhile (· == '\\')).length ≠ cs.reverse.length := by
    intro hlength
    have hself := (List.takeWhile_prefix (· == '\\')).eq_of_length hlength
    have htaken : c ∈ cs.reverse.takeWhile (· == '\\') := by simpa [hself] using hmem
    exact hc (by simpa using List.mem_takeWhile_imp htaken)
  rw [List.takeWhile_append, if_neg hshort]

/-- A text that ends with another character ends with no backslash. -/
theorem endingBackslashes_concat (hc : c ≠ '\\') (cs : List Char) :
    endingBackslashes (cs ++ [c]) = 0 := by
  rw [endingBackslashes, List.rtakeWhile_concat_neg _ _ _ (by simpa using hc), List.length_nil]

/-- What is called in the rest of a text is called in the whole of it, unless the rest begins between
the two backslashes of a pair. -/
theorem NamesClosed.behind (front : List Char) (h : NamesClosed (front ++ rest))
    (heven : Even (endingBackslashes front)) : NamesClosed rest := by
  intro more after hrest hmore
  refine h (front ++ more) after (by rw [hrest, List.append_assoc]) ?_
  -- Only if there is nothing but backslashes between does it matter how the text before it ends.
  by_cases hall : ∀ c ∈ more, c = '\\'
  · have hlength : endingBackslashes more = more.length := by
      rw [endingBackslashes, List.rtakeWhile_eq_self_iff.mpr (by simpa using hall)]
    rw [endingBackslashes_append_of_forall hall]
    exact (hlength ▸ hmore).add heven
  · push Not at hall
    obtain ⟨c, hmem, hc⟩ := hall
    rwa [endingBackslashes_append_of_mem hmem hc]

/-- Behind a single backslash nothing is called at once, and no pair begins. -/
theorem NamesClosed.behind_backslash (h : NamesClosed ('\\' :: rest))
    (hnext : ∀ c ∈ rest.head?, c ≠ '\\') : NamesClosed rest := by
  intro front after hrest hfront
  refine h ('\\' :: front) after (by rw [hrest, List.cons_append]) ?_
  -- The call does not begin at once, so what is in front of it does not begin with a backslash.
  cases front with
  | nil => exact absurd rfl (hnext '\\' (by rw [hrest]; rfl))
  | cons c front =>
    have hc : c ≠ '\\' := hnext c (by rw [hrest]; rfl)
    rwa [← List.singleton_append, endingBackslashes_append_of_mem (List.mem_cons_self ..) hc]

/-- A name that is called at once is closed. -/
theorem NamesClosed.exists_name (h : NamesClosed ('\\' :: 'g' :: '<' :: rest)) :
    ∃ name after, rest = name ++ '>' :: after ∧ '>' ∉ name ∧ '}' ∉ name :=
  h [] rest rfl ⟨0, rfl⟩

theorem NamesClosed.brace_not_mem
    (h : NamesClosed ('\\' :: 'g' :: '<' :: (name ++ '>' :: rest))) (hname : '>' ∉ name) :
    '}' ∉ name := by
  obtain ⟨other, after, hsame, hother, hbrace⟩ := h.exists_name
  rw [← takeWhile_to_mark hname rest, hsame, takeWhile_to_mark hother]
  exact hbrace

theorem NamesClosed.behind_char (front : List Char) (hc : c ≠ '\\')
    (h : NamesClosed (front ++ c :: rest)) : NamesClosed rest := by
  have hsplit : front ++ c :: rest = (front ++ [c]) ++ rest := by simp
  rw [hsplit] at h
  exact h.behind _ (by rw [endingBackslashes_concat hc]; exact ⟨0, rfl⟩)

theorem NamesClosed.behind_pair (h : NamesClosed ('\\' :: '\\' :: rest)) : NamesClosed rest :=
  NamesClosed.behind ['\\', '\\'] h ⟨1, rfl⟩

theorem NamesClosed.behind_name
    (h : NamesClosed ('\\' :: 'g' :: '<' :: (name ++ '>' :: rest))) : NamesClosed rest :=
  NamesClosed.behind_char ('\\' :: 'g' :: '<' :: name) (by decide) h

theorem NamesClosed.behind_digits (hne : digits ≠ []) (hdigits : ∀ c ∈ digits, c.isDigit = true)
    (h : NamesClosed ('\\' :: (digits ++ rest))) : NamesClosed rest := by
  -- The last digit stands between the backslash and the rest, so the rest does not begin inside a
  -- pair.
  have hlast : digits.getLast hne ≠ '\\' := ne_of_isDigit (hdigits _ (List.getLast_mem hne)) rfl
  refine NamesClosed.behind_char ('\\' :: digits.dropLast) hlast ?_
  rwa [List.cons_append, List.append_cons, List.dropLast_append_getLast]

/-- Only finitely many places have to be looked at. -/
theorem namesClosed_iff : NamesClosed cs ↔ ∀ i < cs.length, ['\\', 'g', '<'] <+: cs.drop i →
    Even (endingBackslashes (cs.take i)) →
      '>' ∈ cs.drop (i + 3) ∧ '}' ∉ (cs.drop (i + 3)).takeWhile (· != '>') := by
  constructor
  -- A place is a split of the text into what is in front and what is behind.
  · rintro h i - ⟨rest, hrest⟩ heven
    have hcs : cs = cs.take i ++ (['\\', 'g', '<'] ++ rest) := by
      rw [hrest, List.take_append_drop]
    obtain ⟨name, after, hname, hmark, hbrace⟩ := h _ _ hcs heven
    have hbehind : cs.drop (i + 3) = name ++ '>' :: after := by
      rw [← List.drop_drop, ← hrest, ← hname]
      rfl
    rw [hbehind, takeWhile_to_mark hmark]
    exact ⟨List.mem_append_right _ (List.mem_cons_self ..), hbrace⟩
  · intro h front rest hcs heven
    subst hcs
    obtain ⟨hclosed, hbrace⟩ := h front.length (by simp) (by rw [List.drop_left]; exact ⟨rest, rfl⟩)
      (by rwa [List.take_left])
    rw [← List.drop_drop, List.drop_left] at hclosed hbrace
    obtain ⟨name, after, hrest, hmark⟩ := List.eq_append_cons_of_mem hclosed
    rw [hrest, takeWhile_to_mark hmark] at hbrace
    exact ⟨name, after, hrest, hmark, hbrace⟩

instance : DecidablePred NamesClosed := fun _ => decidable_of_iff _ namesClosed_iff.symm

/-! ## Both forms together -/

/-- What the backslash form says is what is written. -/
theorem WritesFor.eq_expandWith (h : WritesFor m found cs out) (hclosed : NamesClosed cs) :
    out = expandWith (m.groupText found) (pieces (dollarForm cs)) := by
  -- Each part is read as one piece, and in what is behind it the names are closed as well.
  induction h with
  | nil => rw [dollarForm, pieces, expandWith_nil]
  | literal hc _ ih =>
    rw [pieces_dollarForm_literal hc, expandWith_cons, ← ih (hclosed.behind_char [] hc), Piece.text]
  | doubled _ ih =>
    rw [pieces_dollarForm_doubled, expandWith_cons, ← ih hclosed.behind_pair]
    rfl
  | numbered hne hdigits hend _ ih =>
    rw [pieces_dollarForm_numbered hne hdigits hend, expandWith_cons,
      ← ih (hclosed.behind_digits hne hdigits), Piece.text, groupText_eq, called?_digits hne hdigits]
  | named hname _ ih =>
    rw [pieces_dollarForm_named hname (hclosed.brace_not_mem hname), expandWith_cons,
      ← ih hclosed.behind_name, Piece.text, groupText_eq]
  -- The backslash is alone, so no pair begins with it and the rest is closed as it stands.
  | alone hnext hname _ ih =>
    rw [pieces_dollarForm_alone hnext hname, expandWith_cons,
      ← ih (hclosed.behind_backslash fun c hc => (hnext c hc).1)]
    rfl

/-- What may stand behind a backslash. -/
private theorem behind_backslash_cases (rest : List Char) :
    (∃ tail, rest = '\\' :: tail) ∨
      (∃ digits tail, digits ≠ [] ∧ (∀ c ∈ digits, c.isDigit = true) ∧
        (∀ c ∈ tail.head?, c.isDigit = false) ∧ rest = digits ++ tail) ∨
      (∃ tail, rest = 'g' :: '<' :: tail) ∨
      (∀ c ∈ rest.head?, c ≠ '\\' ∧ c.isDigit = false) ∧ ∀ tail, rest ≠ 'g' :: '<' :: tail := by
  by_cases hpair : ∃ tail, rest = '\\' :: tail
  · exact .inl hpair
  by_cases hname : ∃ tail, rest = 'g' :: '<' :: tail
  · exact .inr (.inr (.inl hname))
  by_cases hdigit : ∃ c ∈ rest.head?, c.isDigit = true
  · refine .inr (.inl ⟨rest.takeWhile Char.isDigit, rest.dropWhile Char.isDigit, ?_,
      fun c hc => List.mem_takeWhile_imp hc, ?_, List.takeWhile_append_dropWhile.symm⟩)
    · obtain ⟨c, hc, hdigit⟩ := hdigit
      obtain ⟨tail, rfl⟩ := List.head?_eq_some_iff.mp hc
      simp [hdigit]
    · intro c hc
      have hnot := List.head?_dropWhile_not Char.isDigit rest
      rw [Option.mem_def.mp hc] at hnot
      simpa using hnot
  · refine .inr (.inr (.inr ⟨fun c hc => ⟨?_, ?_⟩, fun tail htail => hname ⟨tail, htail⟩⟩))
    · rintro rfl
      exact hpair (List.head?_eq_some_iff.mp hc)
    · exact Bool.eq_false_iff.mpr fun h => hdigit ⟨c, hc, h⟩

/-- Every text whose names are closed says something. -/
theorem exists_writesFor (m : Matcher) (found : Match) (hclosed : NamesClosed cs) :
    ∃ out, WritesFor m found cs out := by
  -- A part of the text can be long, so the induction is on the length of what is left.
  induction hlength : cs.length using Nat.strong_induction_on generalizing cs with
  | _ n ih =>
    subst hlength
    cases cs with
    | nil => exact ⟨_, .nil⟩
    | cons c rest =>
      by_cases hc : c = '\\'
      case neg =>
        obtain ⟨out, hout⟩ := ih rest.length (by simp) (hclosed.behind_char [] hc) rfl
        exact ⟨_, .literal hc hout⟩
      case pos =>
        subst hc
        rcases behind_backslash_cases rest with ⟨tail, rfl⟩ |
          ⟨digits, tail, hne, hdigits, hend, rfl⟩ | ⟨tail, rfl⟩ | ⟨hnext, hname⟩
        · have hless : tail.length < ('\\' :: '\\' :: tail).length := by
            simp only [List.length_cons]
            omega
          obtain ⟨out, hout⟩ := ih _ hless hclosed.behind_pair rfl
          exact ⟨_, .doubled hout⟩
        · have hless : tail.length < ('\\' :: (digits ++ tail)).length := by
            simp only [List.length_cons, List.length_append]
            omega
          obtain ⟨out, hout⟩ := ih _ hless (hclosed.behind_digits hne hdigits) rfl
          exact ⟨_, .numbered hne hdigits hend hout⟩
        · obtain ⟨name, after, rfl, hname, -⟩ := hclosed.exists_name
          have hless : after.length < ('\\' :: 'g' :: '<' :: (name ++ '>' :: after)).length := by
            simp only [List.length_cons, List.length_append]
            omega
          obtain ⟨out, hout⟩ := ih _ hless hclosed.behind_name rfl
          exact ⟨_, .named hname hout⟩
        · have hrest := hclosed.behind_backslash fun c hc => (hnext c hc).1
          obtain ⟨out, hout⟩ := ih rest.length (by simp) hrest rfl
          exact ⟨_, .alone hnext hname hout⟩

/-- **What is written is what the backslash form says.** For every match and every text in which each
name is closed and has no closing brace, the dollar form that it is turned into expands to the text
with each group in its place, one backslash for two, and every other character as it is. -/
theorem expand_dollarForm (hclosed : NamesClosed cs) (m : Matcher) (found : Match) (out : String) :
    WritesFor m found cs out ↔ out = expandWith (m.groupText found) (pieces (dollarForm cs)) := by
  constructor
  · exact fun h => h.eq_expandWith hclosed
  · rintro rfl
    obtain ⟨out, hout⟩ := exists_writesFor m found hclosed
    rwa [← hout.eq_expandWith hclosed]

/-- A text with every part, a name that is no group's, and doubled backslashes before a name that is
never closed. -/
private def everyPart : List Char := "\\1$1\\g<n>\x7d\\g\\g<2>\\\\g<\\".toList

/-- Of two characters the first is a group with a name. -/
private def pair : Matcher := ⟨#[], 1, [("n", 1)]⟩

private def pairMatch : Match := ⟨#['x', 'y'], #[some 0, some 2, some 0, some 1]⟩

theorem expand_dollarForm_everyPart : NamesClosed everyPart ∧
    WritesFor pair pairMatch everyPart "x$1x\x7d\\g\\g<\\" := by
  have hclosed : NamesClosed everyPart := by decide
  exact ⟨hclosed, (expand_dollarForm hclosed pair pairMatch _).mpr (by decide +kernel)⟩

end SoftwareCensus.Regex
