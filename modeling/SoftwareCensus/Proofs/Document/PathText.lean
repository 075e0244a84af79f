import SoftwareCensus.Document.Path
import SoftwareCensus.Proofs.Numeral.Naturals
import SoftwareCensus.Proofs.Text.Trimming

/-!
# Paths as Texts

A step can be written in several ways: a position in brackets, and a key behind a dot or in quotes
and brackets. A key behind a dot ends only with what comes next, so while a path is read the last
key may still be pending. What counts is the steps read so far with the pending key as the last of
them, and each written step adds one step to these.

## Main results

* `bracketStep?_repr`, `bracketStep?_quoted` : what stands in brackets is read as the step
* `readName_of_spelledStep` : each written step adds one step to those read so far
* `read_of_spelled` : a path is read back from every way to write it
-/

namespace SoftwareCensus.Path

open Numeral

/-! ## Ways to write a path -/

/-- How a step can be written. Only behind other steps there is a dot before a key. -/
inductive SpelledStep (first : Bool) : Step → String → Prop
  | index {i : Nat} (hi : (i : Int) ≤ maxUInt64) :
    SpelledStep first (.index i) ("[" ++ toString i ++ "]")
  | dotted {name : String} (hname : name ≠ "") (hdot : '.' ∉ name.toList)
    (hopen : '[' ∉ name.toList) :
    SpelledStep first (.key name) ((if first then "" else ".") ++ name)
  | quoted {name quote : String} (hquote : quote = "'" ∨ quote = "\"")
    (hclose : ']' ∉ name.toList) :
    SpelledStep first (.key name) ("[" ++ quote ++ name ++ quote ++ "]")

/-- How a path can be written: one step after another, each in any of its ways. -/
inductive Spelled : Bool → Path → String → Prop
  | nil {first : Bool} : Spelled first [] ""
  | cons {first : Bool} {step : Step} {rest : Path} {part text : String}
    (hstep : SpelledStep first step part) (hrest : Spelled false rest text) :
    Spelled first (step :: rest) (part ++ text)

/-! ## What stands in brackets -/

theorem readNat?_repr (i : Nat) : readNat? i.repr.toList = some i := by
  have hdigits : ∀ c ∈ i.repr.toList, c.isDigit = true := fun c hc => Text.isDigit_of_mem_repr hc
  have hvalue : ofDigits i.repr.toList = i := by
    rw [Nat.toList_repr]
    exact Nat.ofDigitChars_ten_toDigits
  have hne : i.repr.toList ≠ [] := by
    rw [Nat.toList_repr]
    exact Nat.toDigits_ne_nil
  rw [readNat?_of_digits hne hdigits, hvalue]

/-- Digits are read as a position. -/
theorem bracketStep?_repr {i : Nat} (hi : (i : Int) ≤ maxUInt64) :
    bracketStep? i.repr.toList = some (.index i) := by
  have htrim : Text.trimList i.repr.toList = i.repr.toList := by
    apply Text.trimList_of_forall
    intro c hc
    exact Text.not_isBlank_of_isDigit (Text.isDigit_of_mem_repr hc)
  have hquotes : unquoted? i.repr.toList = none := by
    unfold unquoted?
    split
    case h_1 q rest hcons =>
      have hdigit : q.isDigit = true :=
        Text.isDigit_of_mem_repr (m := i) (by rw [hcons]; exact List.mem_cons_self ..)
      have hquote : q ≠ '\'' ∧ q ≠ '"' := by
        constructor <;> (rintro rfl; exact absurd hdigit (by decide))
      simp [hquote]
    case h_2 => rfl
  rw [bracketStep?, htrim]
  simp only [hquotes, readNat?_repr]
  simp [hi]

/-- A text in quotes is read as a key. -/
theorem bracketStep?_quoted {q : Char} (hq : q = '\'' ∨ q = '"') (name : List Char) :
    bracketStep? (q :: (name ++ [q])) = some (.key (String.ofList name)) := by
  -- The quotes keep white space at the ends of the key from being trimmed.
  have hblank : Text.isBlank q = false := by
    rcases hq with rfl | rfl <;> decide
  have htrim : Text.trimList (q :: (name ++ [q])) = q :: (name ++ [q]) := by
    apply Text.trimList_eq_self
    · simp [hblank]
    · rw [← List.cons_append, List.getLast?_concat]
      simp [hblank]
  have hquotes : unquoted? (q :: (name ++ [q])) = some name := by
    rcases hq with rfl | rfl <;> simp [unquoted?]
  rw [bracketStep?, htrim]
  simp [hquotes]

/-! ## Reading on -/

variable {steps : Path} {name rest : List Char}

/-- Characters that are neither dots nor brackets are put to the pending key. -/
theorem readName_append_of_plain {cs : List Char} (hdot : '.' ∉ cs) (hopen : '[' ∉ cs)
    (steps : Path) (name rest : List Char) :
    readName steps name (cs ++ rest) = readName steps (cs.reverse ++ name) rest := by
  induction cs generalizing name with
  | nil => rfl
  | cons c tail ih =>
    simp only [List.mem_cons, not_or] at hdot hopen
    rw [List.cons_append, readName, if_neg (by simpa using Ne.symm hdot.1),
      if_neg (by simpa using Ne.symm hopen.1), ih hdot.2 hopen.2]
    simp

/-- What stands in brackets is read up to the first one that closes. -/
theorem readBracket_append {cs : List Char} (hclose : ']' ∉ cs) {step : Step}
    {inner : List Char} (h : bracketStep? (inner.reverse ++ cs) = some step) (steps : Path)
    (rest : List Char) :
    readBracket steps inner (cs ++ ']' :: rest) = readName (step :: steps) [] rest := by
  induction cs generalizing inner with
  | nil =>
    rw [List.append_nil] at h
    simp [readBracket, h]
  | cons c tail ih =>
    simp only [List.mem_cons, not_or] at hclose
    rw [List.cons_append, readBracket, if_neg (by simpa using Ne.symm hclose.1)]
    exact ih hclose.2 (by simpa using h)

/-- A step in brackets ends the pending key and is the last step then. -/
theorem readName_bracket {cs : List Char} (hclose : ']' ∉ cs) {step : Step}
    (h : bracketStep? cs = some step) (steps : Path) (name rest : List Char) :
    readName steps name ('[' :: (cs ++ ']' :: rest)) =
      readName (step :: closeName steps name) [] rest := by
  have hinner : bracketStep? (List.reverse [] ++ cs) = some step := h
  rw [readName, if_neg (by decide), if_pos (by decide)]
  exact readBracket_append hclose hinner _ _

/-- A key that is not empty is the last step as soon as it ends. -/
theorem closeName_of_ne_empty {key : String} (hkey : key ≠ "") (steps : Path) :
    closeName steps key.toList.reverse = .key key :: steps := by
  have hlist : key.toList.reverse.isEmpty = false := by simpa using hkey
  simp [closeName, hlist]

/-- **Each written step adds one step to those read so far**, with the pending key as the last. -/
theorem readName_of_spelledStep {first : Bool} {step : Step} {part : String}
    (h : SpelledStep first step part) (hfirst : first = (closeName steps name).isEmpty)
    (rest : List Char) :
    ∃ more pending, closeName more pending = step :: closeName steps name ∧
      readName steps name (part.toList ++ rest) = readName more pending rest := by
  cases h with
  | @index i hi =>
    -- The bracket that closes is the first one behind the digits.
    have hclose : ']' ∉ i.repr.toList := fun hmem =>
      absurd (Text.isDigit_of_mem_repr hmem) (by decide)
    refine ⟨.index i :: closeName steps name, [], rfl, ?_⟩
    rw [← readName_bracket hclose (bracketStep?_repr hi)]
    simp
  | @quoted key quote hquote hclose =>
    -- Both quotes are read alike, and neither is the bracket that closes.
    refine ⟨.key key :: closeName steps name, [], rfl, ?_⟩
    have hbracket : ∀ q : Char, q = '\'' ∨ q = '"' →
        readName steps name ('[' :: (q :: (key.toList ++ [q]) ++ ']' :: rest)) =
          readName (.key key :: closeName steps name) [] rest := by
      intro q hq
      have hstep := bracketStep?_quoted hq key.toList
      rw [String.ofList_toList] at hstep
      refine readName_bracket ?_ hstep steps name rest
      rcases hq with rfl | rfl <;> simpa using hclose
    rcases hquote with rfl | rfl
    · rw [← hbracket '\'' (.inl rfl)]
      simp
    · rw [← hbracket '"' (.inr rfl)]
      simp
  | @dotted key hname hdot hopen =>
    -- Nothing says yet that the key ends, so it is pending.
    refine ⟨closeName steps name, key.toList.reverse, closeName_of_ne_empty hname _, ?_⟩
    have hkey := readName_append_of_plain hdot hopen (closeName steps name) [] rest
    rw [List.append_nil] at hkey
    cases first with
    | true =>
      -- Nothing was read before the first key.
      have hnothing : steps = [] ∧ name = [] := by
        unfold closeName at hfirst
        cases name <;> simp_all
      obtain ⟨rfl, rfl⟩ := hnothing
      rw [← hkey]
      simp [closeName]
    | false =>
      -- The dot ends the key before, and something was read.
      have hsome : (name.isEmpty && steps.isEmpty) = false := by
        unfold closeName at hfirst
        cases name <;> simp_all
      rw [← hkey]
      simp [readName, hsome]

/-- From any point on, the steps that are written are read behind those read so far. -/
theorem readName_of_spelled {first : Bool} {path : Path} {text : String}
    (h : Spelled first path text) (hfirst : first = (closeName steps name).isEmpty)
    (hsome : closeName steps name ≠ [] ∨ path ≠ []) :
    readName steps name text.toList = .ok ((closeName steps name).reverse ++ path) := by
  induction h generalizing steps name with
  | nil =>
    -- The end of the text ends the pending key, and a path must have come of it all.
    have hclosed : closeName steps name ≠ [] := hsome.resolve_right fun hnil => hnil rfl
    obtain ⟨last, before, hcons⟩ := List.exists_cons_of_ne_nil hclosed
    simp [readName, hcons]
  | @cons first step rest part text hstep hrest ih =>
    obtain ⟨more, pending, hclosed, hread⟩ := readName_of_spelledStep hstep hfirst text.toList
    rw [String.toList_append, hread, ih (by simp [hclosed]) (.inl (by simp [hclosed])), hclosed]
    simp

/-! ## Whole paths -/

/-- **A path is read back from every way to write it.** Positions go up to the greatest integer of
64 bits. A key behind a dot is not empty and has neither dots nor opening brackets, and one in
quotes has no closing bracket; quotes of either kind, white space and all else may be in both. -/
theorem read_of_spelled {path : Path} (hpath : path ≠ []) {text : String}
    (h : Spelled true path text) : read text = .ok path := by
  have hnothing : true = (closeName [] []).isEmpty := rfl
  exact readName_of_spelled h hnothing (.inr hpath)

/-- Keys with a quote, a dot and white space, in all forms. -/
private def mixed : Path := [.key "it's", .index 0, .key " a.b['", .key "c d", .key ""]

theorem read_of_spelled_mixed :
    mixed ≠ [] ∧ Spelled true mixed "it's[0][' a.b[''].c d[\"\"]" ∧
      read "it's[0][' a.b[''].c d[\"\"]" = .ok mixed := by
  have hname : SpelledStep true (.key "it's") "it's" :=
    .dotted (by decide) (by decide) (by decide)
  have hposition : SpelledStep false (.index 0) "[0]" := .index (by decide)
  have hquoted : SpelledStep false (.key " a.b['") "[' a.b['']" := .quoted (.inl rfl) (by decide)
  have hdotted : SpelledStep false (.key "c d") ".c d" :=
    .dotted (by decide) (by decide) (by decide)
  have hempty : SpelledStep false (.key "") "[\"\"]" := .quoted (.inr rfl) (by decide)
  have hspelled : Spelled true mixed "it's[0][' a.b[''].c d[\"\"]" :=
    .cons hname (.cons hposition (.cons hquoted (.cons hdotted (.cons hempty .nil))))
  exact ⟨by decide, hspelled, read_of_spelled (by decide) hspelled⟩

end SoftwareCensus.Path
