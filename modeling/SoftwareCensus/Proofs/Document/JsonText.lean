import SoftwareCensus.Document.Json.Printer
import SoftwareCensus.Proofs.Document.JsonNumbers

/-!
# JSON Text

What is read from a JSON text is JSON. The other way round, the text that a document is written as is
cut into the lexemes that the document is made of, and these are assembled to the document again. Only
the numerals of doubles need not be read as what they were written for, since the reader rounds twice
where a numeral has many digits; so that is a condition on the document.

## Main results

* `isJson_of_source?` : what is read from a text is JSON
* `toList_toJson` : what a document is written as, character by character
* `cuts_chars` : the text of a document is cut into its lexemes
* `assemble_lexemesOf` : the lexemes of a document are assembled to it
* `source?_toJson` : a document is read back from its text
-/

namespace SoftwareCensus.Json

open Numeral

/-! ## What is read is JSON -/

/-- Whether a lexeme that is a value is JSON. -/
def Lexeme.IsJson (l : Lexeme) : Prop := ∀ s, l = .literal s → ∀ room, s.IsJson room

theorem isJson_of_nextLexeme {cs rest : List Char} {l : Lexeme}
    (h : nextLexeme cs = some (l, rest)) : l.IsJson := by
  rintro s rfl room
  unfold nextLexeme at h
  -- Only literals are values: words, and numerals with or without a sign.
  split at h
  case h_8 | h_9 | h_10 =>
    cases h
    trivial
  case h_11 | h_12 =>
    obtain ⟨⟨d, _⟩, hd, hs⟩ := Option.map_eq_some_iff.mp h
    cases hs
    exact isJson_of_readNumber room hd
  case h_7 =>
    obtain ⟨_, _, hs⟩ := Option.map_eq_some_iff.mp h
    cases hs
  all_goals cases h

theorem isJson_of_lexemes? {cs : List Char} {ls : List Lexeme} (h : lexemes? cs = some ls) :
    ∀ l ∈ ls, l.IsJson := by
  -- The lexemes that were read so far are kept along, so the statement is about these, too.
  have hrun : ∀ (bound : Nat) (acc : List Lexeme) (cs : List Char), (∀ l ∈ acc, l.IsJson) →
      lexemesWithin bound acc cs = some ls → ∀ l ∈ ls, l.IsJson := by
    intro bound
    induction bound with
    | zero =>
      intro acc cs _ hls
      cases hls
    | succ bound ih =>
      intro acc cs hacc hls
      unfold lexemesWithin at hls
      split at hls
      case h_1 =>
        cases hls
        intro l hl
        exact hacc l (List.mem_reverse.mp hl)
      case h_2 =>
        split at hls
        case h_1 => cases hls
        case h_2 l rest hl =>
          have hnext : ∀ k ∈ l :: acc, k.IsJson :=
            List.forall_mem_cons.mpr ⟨isJson_of_nextLexeme hl, hacc⟩
          exact ih (l :: acc) rest hnext hls
  refine hrun (cs.length + 1) [] cs ?_ h
  intro l hl
  cases hl

/-- Whether what a frame holds is JSON. -/
def Frame.IsJson (room : Nat) : Frame → Prop
  | .items acc => Source.AreJson room acc
  | .entry acc _ => Source.ValuesAreJson room acc

/-- Whether what the open brackets hold is JSON: every one leaves less room for those inside it. -/
def StackIsJson : List Frame → Prop
  | [] => True
  | frame :: below =>
    below.length < maxDepth ∧ frame.IsJson (maxDepth - below.length - 1) ∧ StackIsJson below

/-- Whether what was read last is JSON. -/
def Expect.IsJson (stack : List Frame) : Expect → Prop
  | .value | .firstItem => True
  | .firstKey => stack.length < maxDepth
  | .key acc | .colon acc _ =>
    stack.length < maxDepth ∧ Source.ValuesAreJson (maxDepth - stack.length - 1) acc
  | .separator v => v.IsJson (maxDepth - stack.length)

/-- **Assembling keeps to JSON**: a value is as deep as the brackets around it allow. -/
theorem isJson_of_assemble {ls : List Lexeme} {stack : List Frame} {expect : Expect} {s : Source}
    (hls : ∀ l ∈ ls, l.IsJson) (hstack : StackIsJson stack) (hexpect : expect.IsJson stack)
    (h : assemble ls stack expect = some s) : s.IsJson maxDepth := by
  -- The cases are the transitions. An opening bracket leaves less room for what is inside it, and
  -- what is collected inside has the room that the bracket had when that is closed.
  fun_induction assemble ls stack expect with
  | case1 d =>
    cases h
    exact hexpect
  | case2 | case3 | case5 | case7 | case9 => cases h
  | case4 rest stack hdepth ih | case6 rest stack hdepth ih =>
    exact ih (List.forall_mem_cons.mp hls).2 ⟨not_le.mp hdepth, trivial, hstack⟩ trivial h
  | case8 rest stack hdepth ih | case10 rest stack hdepth ih =>
    exact ih (List.forall_mem_cons.mp hls).2 hstack (not_le.mp hdepth) h
  | case11 s rest stack ih | case12 s rest stack ih =>
    exact ih (List.forall_mem_cons.mp hls).2 hstack trivial h
  | case13 d rest stack ih | case14 d rest stack ih =>
    obtain ⟨hd, hrest⟩ := List.forall_mem_cons.mp hls
    exact ih hrest hstack (hd d rfl _) h
  | case15 rest acc stack ih =>
    have hroom : 0 < maxDepth - stack.length := Nat.sub_pos_of_lt hstack.1
    exact ih (List.forall_mem_cons.mp hls).2 hstack.2.2 ⟨hroom, trivial⟩ h
  | case16 k rest stack acc ih => exact ih (List.forall_mem_cons.mp hls).2 hstack hexpect h
  | case17 k rest stack ih =>
    exact ih (List.forall_mem_cons.mp hls).2 hstack ⟨hexpect, trivial⟩ h
  | case18 rest stack ih =>
    have hroom : 0 < maxDepth - stack.length := Nat.sub_pos_of_lt hexpect
    exact ih (List.forall_mem_cons.mp hls).2 hstack ⟨hroom, trivial⟩ h
  | case19 rest stack acc k ih =>
    exact ih (List.forall_mem_cons.mp hls).2 ⟨hexpect.1, hexpect.2, hstack⟩ trivial h
  | case20 rest acc stack d ih =>
    obtain ⟨hdepth, hacc, hbelow⟩ := hstack
    exact ih (List.forall_mem_cons.mp hls).2 ⟨hdepth, ⟨hexpect, hacc⟩, hbelow⟩ trivial h
  | case21 rest acc stack d ih =>
    obtain ⟨hdepth, hacc, hbelow⟩ := hstack
    have hroom : 0 < maxDepth - stack.length := Nat.sub_pos_of_lt hdepth
    have hitems : Source.AreJson (maxDepth - stack.length - 1) (d :: acc) := ⟨hexpect, hacc⟩
    exact ih (List.forall_mem_cons.mp hls).2 hbelow ⟨hroom, Source.areJson_reverse.mpr hitems⟩ h
  | case22 rest acc k stack d ih =>
    obtain ⟨hdepth, hacc, hbelow⟩ := hstack
    exact ih (List.forall_mem_cons.mp hls).2 hbelow ⟨hdepth, hexpect, hacc⟩ h
  | case23 rest acc k stack d ih =>
    obtain ⟨hdepth, hacc, hbelow⟩ := hstack
    have hroom : 0 < maxDepth - stack.length := Nat.sub_pos_of_lt hdepth
    have hvalues : Source.ValuesAreJson (maxDepth - stack.length - 1) ((.str k, d) :: acc) :=
      ⟨hexpect, hacc⟩
    exact ih (List.forall_mem_cons.mp hls).2 hbelow
      ⟨hroom, Source.valuesAreJson_reverse.mpr hvalues⟩ h
  | case24 => cases h

/-- **What a JSON text is read as is JSON.** -/
theorem isJson_of_source? {text : String} {s : Source} (h : source? text = some s) :
    s.IsJson maxDepth := by
  obtain ⟨ls, hls, hassemble⟩ := Option.bind_eq_some_iff.mp h
  have hstack : StackIsJson [] := trivial
  have hexpect : Expect.IsJson [] .value := trivial
  exact isJson_of_assemble (isJson_of_lexemes? hls) hstack hexpect hassemble

/-! ## Strings -/

/-- A control character is written with two hexadecimal digits. -/
theorem codeUnit?_hexDigit : ∀ n < 32,
    codeUnit? '0' '0' (Document.hexDigit (n / 16)) (Document.hexDigit (n % 16)) = some n := by
  decide

/-- An escaped character is read as that character. -/
theorem readString_escapeChar (c : Char) (acc tail : List Char) :
    readString none acc ((Document.escapeChar c).toList ++ tail) =
      readString none (c :: acc) tail := by
  by_cases hletter : c ∈ ['"', '\\', '\n', '\r', '\t', '\x08', '\x0c']
  · -- These have an escape of one letter.
    simp only [List.mem_cons, List.not_mem_nil, or_false] at hletter
    rcases hletter with rfl | rfl | rfl | rfl | rfl | rfl | rfl <;> rfl
  · simp only [List.mem_cons, List.not_mem_nil, or_false, not_or] at hletter
    obtain ⟨hquote, hbackslash, hline, hreturn, htab, hback, hfeed⟩ := hletter
    by_cases hcontrol : c.toNat < 0x20
    · have hescape : (Document.escapeChar c).toList =
          ['\\', 'u', '0', '0', Document.hexDigit (c.toNat / 16),
            Document.hexDigit (c.toNat % 16)] := by
        simp [Document.escapeChar, hquote, hbackslash, hline, hreturn, htab, hback, hfeed, hcontrol]
      -- A control character is no surrogate.
      have hleading : ¬ 0xd800 ≤ c.toNat := by omega
      have htrailing : ¬ 0xdc00 ≤ c.toNat := by omega
      rw [hescape]
      simp only [List.cons_append, List.nil_append, readString, codeUnit?_hexDigit c.toNat hcontrol,
        hleading, htrailing, decide_false, Bool.false_and, Bool.false_eq_true, if_false,
        Char.ofNat_toNat]
    · have hescape : (Document.escapeChar c).toList = [c] := by
        simp [Document.escapeChar, hquote, hbackslash, hline, hreturn, htab, hback, hfeed, hcontrol]
      rw [hescape, List.cons_append, List.nil_append, readString]
      · simp [hcontrol]
      · exact fun _ _ _ _ _ heq _ => hbackslash heq
      · exact fun _ _ heq _ => hbackslash heq
      · exact hquote

/-- The characters of a text between quotes. -/
def quoted (s : String) : List Char :=
  '"' :: (s.toList.flatMap fun c => (Document.escapeChar c).toList) ++ ['"']

theorem toList_quoteJson (s : String) : (Document.quoteJson s).toList = quoted s := by
  -- The text is built up from the left, so what is there already comes first.
  have hfold : ∀ (cs : List Char) (out : String),
      (cs.foldl (fun acc c => acc ++ Document.escapeChar c) out).toList =
        out.toList ++ cs.flatMap fun c => (Document.escapeChar c).toList := by
    intro cs
    induction cs with
    | nil => simp
    | cons c rest ih => simp [ih]
  rw [Document.quoteJson, String.foldl_eq_foldl_toList, String.toList_append, hfold]
  rfl

/-- **A text between quotes is read as that text.** -/
theorem readString_quoted (s : String) (tail : List Char) :
    readString none [] ((s.toList.flatMap fun c => (Document.escapeChar c).toList) ++ '"' :: tail) =
      some (s, tail) := by
  -- The characters that were read so far are kept along in reverse order.
  have hread : ∀ (cs acc : List Char),
      readString none acc ((cs.flatMap fun c => (Document.escapeChar c).toList) ++ '"' :: tail) =
        some (String.ofList (acc.reverse ++ cs), tail) := by
    intro cs
    induction cs with
    | nil =>
      intro acc
      simp [readString]
    | cons c rest ih =>
      intro acc
      rw [List.flatMap_cons, List.append_assoc, readString_escapeChar, ih]
      simp
  rw [hread, List.reverse_nil, List.nil_append, String.ofList_toList]

/-! ## Lexemes of a text -/

theorem nextLexeme_of_isDigit {c : Char} (hc : c.isDigit = true) (tail : List Char) :
    nextLexeme (c :: tail) =
      (readNumber false (c :: tail)).map fun (d, rest) => (.literal d, rest) := by
  rw [nextLexeme]
  all_goals
    intros
    rename_i heq
    cases heq
    exact absurd hc (by decide)

section Numerals

variable {rest : List Char}

/-- A numeral is read in the same way whatever comes after it. -/
theorem nextLexeme_append {cs : List Char} {x : Binary64} (hrest : Stops rest)
    (h : nextLexeme cs = some (.literal (.float x), [])) :
    nextLexeme (cs ++ rest) = some (.literal (.float x), rest) := by
  have hnumber : ∀ {negative : Bool} {cs : List Char},
      ((readNumber negative cs).map fun (d, rest) => (Lexeme.literal d, rest)) =
        some (.literal (.float x), []) →
      ((readNumber negative (cs ++ rest)).map fun (d, rest) => (Lexeme.literal d, rest)) =
        some (.literal (.float x), rest) := by
    intro negative cs hread
    obtain ⟨⟨d, tail⟩, hd, heq⟩ := Option.map_eq_some_iff.mp hread
    cases heq
    rw [readNumber_append hrest, hd]
    rfl
  unfold nextLexeme at h
  split at h
  case h_11 tail => exact hnumber h
  -- Without a sign the first digit decides that a numeral is read, and it stays where it is.
  case h_12 =>
    obtain ⟨r, hr, -⟩ := Option.map_eq_some_iff.mp h
    obtain ⟨c, tail, rfl, hc⟩ := exists_digit_of_readNumber hr
    rw [List.cons_append, nextLexeme_of_isDigit hc]
    exact hnumber h
  case h_7 =>
    obtain ⟨_, _, heq⟩ := Option.map_eq_some_iff.mp h
    cases heq
  all_goals cases h

/-- **An integer of 64 bits is read as that integer.** -/
theorem nextLexeme_toString {n : Int} (hn : fits64 n = true) (hrest : Stops rest) :
    nextLexeme ((toString n).toList ++ rest) = some (.literal (.int n), rest) := by
  obtain ⟨hlow, hhigh⟩ := fits64_iff.mp hn
  -- A sign is a lexeme's first character, and the digits behind it are read with it in mind.
  cases n with
  | ofNat m =>
    have hdigits : (toString (Int.ofNat m)).toList = Nat.toDigits 10 m := Nat.toList_repr
    have hread : readNumber false (Nat.toDigits 10 m ++ rest) = (integer false m).map (·, rest) :=
      readNumber_toDigits hhigh hrest
    obtain ⟨c, tail, hcons, hc⟩ := exists_digit_of_readNumber hread
    rw [hdigits, hcons, nextLexeme_of_isDigit hc, ← hcons, hread]
    rfl
  | negSucc m =>
    have hdigits : (toString (Int.negSucc m)).toList = '-' :: Nat.toDigits 10 (m + 1) := by
      show ("-" ++ (m + 1).repr).toList = _
      rw [String.toList_append, Nat.toList_repr]
      rfl
    have hfits : ((m + 1 : Nat) : Int) ≤ maxUInt64 := by
      simp only [minInt64] at hlow
      simp only [maxUInt64]
      omega
    have hinteger : integer true (m + 1) = some (.int (.negSucc m)) := by
      have hrange : ¬ -((m + 1 : Nat) : Int) < minInt64 := not_lt.mpr hlow
      have hnone : (m + 1 == 0 || decide (-((m + 1 : Nat) : Int) < minInt64)) = false := by
        rw [decide_eq_false hrange]
        rfl
      rw [integer, hnone]
      rfl
    rw [hdigits]
    show ((readNumber true (Nat.toDigits 10 (m + 1) ++ rest)).map fun (d, rest) =>
      (Lexeme.literal d, rest)) = _
    rw [readNumber_toDigits hfits hrest, hinteger]
    rfl

end Numerals


/-! ## What a document is written as -/

mutual

/-- The characters of the JSON text of a document. -/
def chars : Document → List Char
  | .null => ['n', 'u', 'l', 'l']
  | .bool true => ['t', 'r', 'u', 'e']
  | .bool false => ['f', 'a', 'l', 's', 'e']
  | .int n => (toString n).toList
  | .float x => (Document.jsonNumeral x).toList
  | .str s => quoted s
  | .list items => '[' :: itemChars true items ++ [']']
  | .map fields => '{' :: fieldChars true fields ++ ['}']

/-- The characters of the items of a list; a comma stands before all but the first one. -/
def itemChars (first : Bool) : List Document → List Char
  | [] => []
  | d :: rest => (if first then [] else [',']) ++ chars d ++ itemChars false rest

/-- The characters of the entries of a mapping; a comma stands before all but the first one. -/
def fieldChars (first : Bool) : List (String × Document) → List Char
  | [] => []
  | (k, d) :: rest =>
    (if first then [] else [',']) ++ quoted k ++ ':' :: chars d ++ fieldChars false rest

end

mutual

theorem toList_writeJson : ∀ (d : Document) (out : String),
    (Document.writeJson out d).toList = out.toList ++ chars d
  | .null, out | .bool true, out | .bool false, out | .int _, out | .float _, out => by
    rw [Document.writeJson, String.toList_append]
    rfl
  | .str s, out => by
    rw [Document.writeJson, String.toList_append, toList_quoteJson]
    rfl
  | .list items, out => by
    rw [Document.writeJson, String.toList_append, toList_writeJsonItems items, String.toList_append,
      chars]
    simp
  | .map fields, out => by
    rw [Document.writeJson, String.toList_append, toList_writeJsonFields fields,
      String.toList_append, chars]
    simp

theorem toList_writeJsonItems : ∀ (items : List Document) (out : String) (first : Bool),
    (Document.writeJsonItems out first items).toList = out.toList ++ itemChars first items
  | [], out, first => by rw [Document.writeJsonItems, itemChars, List.append_nil]
  | d :: rest, out, first => by
    rw [Document.writeJsonItems, toList_writeJsonItems rest, toList_writeJson d, itemChars]
    cases first <;> simp

theorem toList_writeJsonFields : ∀ (fields : List (String × Document)) (out : String)
    (first : Bool),
    (Document.writeJsonFields out first fields).toList = out.toList ++ fieldChars first fields
  | [], out, first => by rw [Document.writeJsonFields, fieldChars, List.append_nil]
  | (k, d) :: rest, out, first => by
    rw [Document.writeJsonFields, toList_writeJsonFields rest, toList_writeJson d, fieldChars]
    cases first <;> simp [toList_quoteJson]

end

theorem toList_toJson (d : Document) : d.toJson.toList = chars d :=
  toList_writeJson d ""

mutual

/-- The lexemes of the JSON text of a document. -/
def lexemesOf : Document → List Lexeme
  | .str s => [.text s]
  | .list items => .openList :: lexemesOfItems true items ++ [.closeList]
  | .map fields => .openMap :: lexemesOfFields true fields ++ [.closeMap]
  | d => [.literal (.ofDocument d)]

/-- The lexemes of the items of a list. -/
def lexemesOfItems (first : Bool) : List Document → List Lexeme
  | [] => []
  | d :: rest => (if first then [] else [.comma]) ++ lexemesOf d ++ lexemesOfItems false rest

/-- The lexemes of the entries of a mapping. -/
def lexemesOfFields (first : Bool) : List (String × Document) → List Lexeme
  | [] => []
  | (k, d) :: rest =>
    (if first then [] else [.comma]) ++ .text k :: .colon :: lexemesOf d ++
      lexemesOfFields false rest

end

/-! ## Cutting the text -/

/-- No lexeme begins with a blank. -/
theorem not_isBlank_of_nextLexeme {c : Char} {tail : List Char} {r : Lexeme × List Char}
    (h : nextLexeme (c :: tail) = some r) : isBlank c = false := by
  unfold nextLexeme at h
  split at h
  -- A numeral without a sign begins with a digit.
  case h_12 =>
    obtain ⟨_, hr, -⟩ := Option.map_eq_some_iff.mp h
    obtain ⟨d, _, hcons, hd⟩ := exists_digit_of_readNumber hr
    obtain rfl := (List.cons.inj hcons).1
    have hblank : ∀ b ∈ [' ', '\n', '\t', '\r'], c ≠ b := by
      rintro b hb rfl
      simp only [List.mem_cons, List.not_mem_nil, or_false] at hb
      rcases hb with rfl | rfl | rfl | rfl <;> exact absurd hd (by decide)
    simp only [isBlank, Bool.or_eq_false_iff, beq_eq_false_iff_ne]
    exact ⟨⟨⟨hblank ' ' (by decide), hblank '\n' (by decide)⟩, hblank '\t' (by decide)⟩,
      hblank '\r' (by decide)⟩
  all_goals
    rename_i heq
    obtain rfl := (List.cons.inj heq).1
    rfl

/-- A text that is cut into lexemes with nothing between them. -/
inductive Cuts : List Char → List Lexeme → Prop where
  | done : Cuts [] []
  | next {cs rest : List Char} {l : Lexeme} {ls : List Lexeme}
      (read : nextLexeme cs = some (l, rest)) (shorter : rest.length < cs.length)
      (later : Cuts rest ls) : Cuts cs (l :: ls)

/-- **A text that is cut into lexemes is read as these.** -/
theorem lexemes?_of_cuts {cs : List Char} {ls : List Lexeme} (h : Cuts cs ls) :
    lexemes? cs = some ls := by
  -- The bound outlives the text, since every lexeme takes at least one character off it.
  have hrun : ∀ (bound : Nat) (acc : List Lexeme), cs.length < bound →
      lexemesWithin bound acc cs = some (acc.reverse ++ ls) := by
    induction h with
    | done =>
      intro bound acc hbound
      obtain ⟨bound, rfl⟩ := Nat.exists_eq_add_of_lt hbound
      simp [lexemesWithin]
    | @next cs rest l ls hread hshorter _ ih =>
      intro bound acc hbound
      obtain ⟨bound, rfl⟩ : ∃ b, bound = b + 1 := ⟨bound - 1, by omega⟩
      cases cs with
      | nil => cases hshorter
      | cons c tail =>
        have hkept : (c :: tail).dropWhile isBlank = c :: tail :=
          List.dropWhile_cons_of_neg (by simp [not_isBlank_of_nextLexeme hread])
        rw [lexemesWithin, hkept]
        simp only [hread]
        rw [ih bound (l :: acc) (by omega)]
        simp
  exact (hrun (cs.length + 1) [] (Nat.lt_succ_self _)).trans rfl

/-- Characters that are one lexeme, in front of a text. -/
theorem Cuts.cons {cs rest : List Char} {l : Lexeme} {ls : List Lexeme} (h : Cuts rest ls)
    (hread : nextLexeme (cs ++ rest) = some (l, rest)) (hcs : cs ≠ []) :
    Cuts (cs ++ rest) (l :: ls) := by
  refine Cuts.next hread ?_ h
  rw [List.length_append]
  exact Nat.lt_add_of_pos_left (List.length_pos_of_ne_nil hcs)

/-- A punctuation mark, in front of a text. -/
theorem Cuts.mark {c : Char} {rest : List Char} {l : Lexeme} {ls : List Lexeme} (h : Cuts rest ls)
    (hread : nextLexeme (c :: rest) = some (l, rest)) : Cuts (c :: rest) (l :: ls) :=
  Cuts.next hread (Nat.lt_succ_self _) h

/-- A text between quotes, in front of a text. -/
theorem Cuts.quoted {rest : List Char} {ls : List Lexeme} (h : Cuts rest ls) (s : String) :
    Cuts (Json.quoted s ++ rest) (.text s :: ls) := by
  refine h.cons ?_ (List.cons_ne_nil _ _)
  show (readString none []
    ((s.toList.flatMap fun c => (Document.escapeChar c).toList) ++ ['"'] ++ rest)).map
      (fun read => (Lexeme.text read.1, read.2)) = _
  rw [List.append_assoc, List.singleton_append, readString_quoted]
  rfl

/-- Whether the numeral of a double is read as that double. -/
def readsBack (x : Binary64) : Bool :=
  match nextLexeme (Document.jsonNumeral x).toList with
  | some (.literal (.float y), []) => y == x
  | _ => false

theorem nextLexeme_jsonNumeral {x : Binary64} (h : readsBack x = true) :
    nextLexeme (Document.jsonNumeral x).toList = some (.literal (.float x), []) := by
  unfold readsBack at h
  split at h
  case h_1 y heq =>
    obtain rfl : y = x := by simpa using h
    exact heq
  case h_2 => cases h

mutual

/-- Whether the numerals of all doubles in a document are read as these doubles. -/
def numeralsReadBack : Document → Bool
  | .float x => readsBack x
  | .list items => itemsReadBack items
  | .map fields => valuesReadBack fields
  | _ => true

/-- Whether those of all items are. -/
def itemsReadBack : List Document → Bool
  | [] => true
  | d :: rest => numeralsReadBack d && itemsReadBack rest

/-- Whether those of all values are. -/
def valuesReadBack : List (String × Document) → Bool
  | [] => true
  | (_, d) :: rest => numeralsReadBack d && valuesReadBack rest

end

theorem stops_itemChars (items : List Document) (rest : List Char) :
    Stops (itemChars false items ++ ']' :: rest) := by
  cases items with
  | nil => exact Or.inr ⟨']', rest, rfl, by decide⟩
  | cons d items => exact Or.inr ⟨',', _, rfl, by decide⟩

theorem stops_fieldChars (fields : List (String × Document)) (rest : List Char) :
    Stops (fieldChars false fields ++ '}' :: rest) := by
  cases fields with
  | nil => exact Or.inr ⟨'}', rest, rfl, by decide⟩
  | cons entry fields => exact Or.inr ⟨',', _, rfl, by decide⟩

mutual

/-- **The text of a document is cut into its lexemes**, whatever comes after the document. -/
theorem cuts_chars : ∀ (d : Document) {room : Nat} {rest : List Char} {ls : List Lexeme},
    d.IsJson room → numeralsReadBack d = true → Stops rest → Cuts rest ls →
      Cuts (chars d ++ rest) (lexemesOf d ++ ls)
  | .null, _, _, _, _, _, _, h | .bool true, _, _, _, _, _, _, h
  | .bool false, _, _, _, _, _, _, h =>
    h.cons rfl (List.cons_ne_nil _ _)
  | .int n, _, _, _, hd, _, hrest, h => by
    refine h.cons (nextLexeme_toString hd hrest) ?_
    -- Nothing is read off an empty text, so there is some text.
    intro (hnil : (toString n).toList = [])
    have hread := nextLexeme_toString hd (Or.inl rfl)
    rw [hnil] at hread
    cases hread
  | .float x, _, _, _, _, hback, hrest, h => by
    have hread := nextLexeme_jsonNumeral (x := x) hback
    refine h.cons (nextLexeme_append hrest hread) ?_
    intro (hnil : (Document.jsonNumeral x).toList = [])
    rw [hnil] at hread
    cases hread
  | .str s, _, _, _, _, _, _, h => h.quoted s
  | .list items, _, rest, ls, hd, hback, _, h => by
    have hclose : Cuts (']' :: rest) (.closeList :: ls) := h.mark rfl
    have hitems := cuts_itemChars items hd.2 hback true hclose
    simpa [chars, lexemesOf] using hitems.mark (c := '[') (l := .openList) rfl
  | .map fields, _, rest, ls, hd, hback, _, h => by
    have hclose : Cuts ('}' :: rest) (.closeMap :: ls) := h.mark rfl
    have hfields := cuts_fieldChars fields hd.2 hback true hclose
    simpa [chars, lexemesOf] using hfields.mark (c := '{') (l := .openMap) rfl

theorem cuts_itemChars : ∀ (items : List Document) {room : Nat} {rest : List Char}
    {ls : List Lexeme}, Document.AreJson room items → itemsReadBack items = true → ∀ first,
      Cuts (']' :: rest) ls →
        Cuts (itemChars first items ++ ']' :: rest) (lexemesOfItems first items ++ ls)
  | [], _, _, _, _, _, _, h => h
  | d :: items, _, rest, ls, hd, hback, first, h => by
    obtain ⟨hfirst, hothers⟩ := Bool.and_eq_true_iff.mp hback
    have hlater := cuts_itemChars items hd.2 hothers false h
    have hvalue := cuts_chars d hd.1 hfirst (stops_itemChars items rest) hlater
    cases first with
    | true => simpa [itemChars, lexemesOfItems] using hvalue
    | false => simpa [itemChars, lexemesOfItems] using hvalue.mark (c := ',') (l := .comma) rfl

theorem cuts_fieldChars : ∀ (fields : List (String × Document)) {room : Nat} {rest : List Char}
    {ls : List Lexeme}, Document.ValuesAreJson room fields → valuesReadBack fields = true → ∀ first,
      Cuts ('}' :: rest) ls →
        Cuts (fieldChars first fields ++ '}' :: rest) (lexemesOfFields first fields ++ ls)
  | [], _, _, _, _, _, _, h => h
  | (k, d) :: fields, _, rest, ls, hd, hback, first, h => by
    obtain ⟨hfirst, hothers⟩ := Bool.and_eq_true_iff.mp hback
    have hlater := cuts_fieldChars fields hd.2 hothers false h
    have hvalue := cuts_chars d hd.1 hfirst (stops_fieldChars fields rest) hlater
    have hentry := (hvalue.mark (c := ':') (l := .colon) rfl).quoted k
    cases first with
    | true => simpa [fieldChars, lexemesOfFields] using hentry
    | false => simpa [fieldChars, lexemesOfFields] using hentry.mark (c := ',') (l := .comma) rfl

end

/-! ## Assembling the lexemes -/

mutual

/-- **The lexemes of a document are assembled to it**, where brackets may still nest deep enough. -/
theorem assemble_lexemesOf : ∀ (d : Document) {room : Nat} {stack : List Frame}
    (rest : List Lexeme), d.IsJson room → stack.length + room ≤ maxDepth →
      assemble (lexemesOf d ++ rest) stack .value =
        assemble rest stack (.separator (.ofDocument d)) ∧
      assemble (lexemesOf d ++ rest) stack .firstItem =
        assemble rest stack (.separator (.ofDocument d))
  | .null, _, _, _, _, _ | .bool _, _, _, _, _, _ | .int _, _, _, _, _, _ | .float _, _, _, _, _, _
  | .str _, _, _, _, _, _ => by constructor <;> simp [lexemesOf, assemble, Source.ofDocument]
  | .list items, room, stack, rest, hd, hroom => by
    -- The bracket takes one of the levels that are left.
    have hdepth : ¬ stack.length ≥ maxDepth := by
      have hpos := hd.1
      omega
    have hitems : assemble (lexemesOfItems true items ++ .closeList :: rest) (.items [] :: stack)
        .firstItem = assemble rest stack (.separator (.list (Source.ofDocuments items))) := by
      have hinner : (Frame.items [] :: stack).length + (room - 1) ≤ maxDepth := by
        have hpos := hd.1
        rw [List.length_cons]
        omega
      cases items with
      | nil => simp [lexemesOfItems, assemble, Source.ofDocuments]
      | cons d items =>
        have hfirst := (assemble_lexemesOf d (lexemesOfItems false items ++ .closeList :: rest)
          hd.2.1 hinner).2
        have hothers := assemble_lexemesOfItems items [] (.ofDocument d) rest hd.2.2 hinner
        simpa [lexemesOfItems, Source.ofDocuments] using hfirst.trans hothers
    constructor <;> simpa [lexemesOf, assemble, hdepth, Source.ofDocument] using hitems
  | .map fields, room, stack, rest, hd, hroom => by
    have hdepth : ¬ stack.length ≥ maxDepth := by
      have hpos := hd.1
      omega
    have hfields : assemble (lexemesOfFields true fields ++ .closeMap :: rest) stack .firstKey =
        assemble rest stack (.separator (.map (Source.ofFields fields))) := by
      cases fields with
      | nil => simp [lexemesOfFields, assemble, Source.ofFields]
      | cons entry fields =>
        obtain ⟨k, d⟩ := entry
        have hinner : (Frame.entry [] k :: stack).length + (room - 1) ≤ maxDepth := by
          have hpos := hd.1
          rw [List.length_cons]
          omega
        have hfirst := (assemble_lexemesOf d (lexemesOfFields false fields ++ .closeMap :: rest)
          hd.2.1 hinner).1
        have hothers := assemble_lexemesOfFields fields [] k (.ofDocument d) rest hd.2.2 hinner
        simpa [lexemesOfFields, assemble, Source.ofFields] using hfirst.trans hothers
    constructor <;> simpa [lexemesOf, assemble, hdepth, Source.ofDocument] using hfields

/-- The items of a list are collected behind those that it holds so far. -/
theorem assemble_lexemesOfItems : ∀ (items : List Document) {room : Nat} {stack : List Frame}
    (acc : List Source) (v : Source) (rest : List Lexeme), Document.AreJson room items →
      (Frame.items acc :: stack).length + room ≤ maxDepth →
        assemble (lexemesOfItems false items ++ .closeList :: rest) (.items acc :: stack)
            (.separator v) =
          assemble rest stack (.separator (.list ((v :: acc).reverse ++ Source.ofDocuments items)))
  | [], _, _, acc, v, rest, _, _ => by simp [lexemesOfItems, assemble, Source.ofDocuments]
  | d :: items, room, stack, acc, v, rest, hd, hroom => by
    have hnext : (Frame.items (v :: acc) :: stack).length + room ≤ maxDepth := hroom
    have hfirst := (assemble_lexemesOf d (lexemesOfItems false items ++ .closeList :: rest) hd.1
      hnext).1
    have hothers := assemble_lexemesOfItems items (v :: acc) (.ofDocument d) rest hd.2 hnext
    simpa [lexemesOfItems, assemble, Source.ofDocuments] using hfirst.trans hothers

/-- The entries of a mapping are collected behind those that it holds so far. -/
theorem assemble_lexemesOfFields : ∀ (fields : List (String × Document)) {room : Nat}
    {stack : List Frame} (acc : List (Source × Source)) (k : String) (v : Source)
    (rest : List Lexeme), Document.ValuesAreJson room fields →
      (Frame.entry acc k :: stack).length + room ≤ maxDepth →
        assemble (lexemesOfFields false fields ++ .closeMap :: rest) (.entry acc k :: stack)
            (.separator v) =
          assemble rest stack
            (.separator (.map (((.str k, v) :: acc).reverse ++ Source.ofFields fields)))
  | [], _, _, acc, k, v, rest, _, _ => by simp [lexemesOfFields, assemble, Source.ofFields]
  | (l, d) :: fields, room, stack, acc, k, v, rest, hd, hroom => by
    have hnext : (Frame.entry ((.str k, v) :: acc) l :: stack).length + room ≤ maxDepth := hroom
    have hfirst := (assemble_lexemesOf d (lexemesOfFields false fields ++ .closeMap :: rest) hd.1
      hnext).1
    have hothers := assemble_lexemesOfFields fields ((.str k, v) :: acc) l (.ofDocument d) rest hd.2
      hnext
    simpa [lexemesOfFields, assemble, Source.ofFields] using hfirst.trans hothers

end

/-- Reading what is written is reading its characters. -/
theorem source?_toJson_eq (d : Document) :
    source? d.toJson = (lexemes? (chars d)).bind fun ls => assemble ls [] .value := by
  rw [source?, toList_toJson]

/-- **A document is read back from its JSON text**, as far as the numerals of its doubles are. -/
theorem source?_toJson {d : Document} (hd : d.IsJson maxDepth)
    (hback : numeralsReadBack d = true) : source? d.toJson = some (.ofDocument d) := by
  have hcuts : Cuts (chars d) (lexemesOf d) := by
    have hstops : Stops [] := Or.inl rfl
    simpa using cuts_chars d hd hback hstops Cuts.done
  have hassemble : assemble (lexemesOf d) [] .value = some (.ofDocument d) := by
    have hroom : ([] : List Frame).length + maxDepth ≤ maxDepth := (Nat.zero_add maxDepth).le
    have hvalue := (assemble_lexemesOf d [] hd hroom).1
    simpa [assemble] using hvalue
  rw [source?_toJson_eq, lexemes?_of_cuts hcuts]
  exact hassemble

end SoftwareCensus.Json
