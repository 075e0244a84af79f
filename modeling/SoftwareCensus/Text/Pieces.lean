import SoftwareCensus.Text.Case
import SoftwareCensus.Text.Category

/-!
# Parts of texts

Finding, replacing, splitting and trimming, over lists of characters.
-/

namespace SoftwareCensus.Text

/-! ## Finding -/

/-- What is left of a text behind a given beginning. -/
def afterStart? (start text : List Char) : Option (List Char) :=
  match start, text with
  | [], rest => some rest
  | _ :: _, [] => none
  | a :: as, b :: bs => if a == b then afterStart? as bs else none

/-- The text before and behind the first place of a part. -/
def cutAt? (part : List Char) : List Char → Option (List Char × List Char)
  | [] => if part.isEmpty then some ([], []) else none
  | c :: cs =>
    match afterStart? part (c :: cs) with
    | some rest => some ([], rest)
    | none => (cutAt? part cs).map fun (before, rest) => (c :: before, rest)

/-- Whether a part occurs in a text. -/
def hasPart (part text : String) : Bool := (cutAt? part.toList text.toList).isSome

theorem afterStart?_eq_some_iff {start text rest : List Char} :
    afterStart? start text = some rest ↔ text = start ++ rest := by
  induction start generalizing text with
  | nil => simp [afterStart?]
  | cons a start ih =>
    cases text with
    | nil => simp [afterStart?]
    | cons b text =>
      by_cases hab : a = b
      · simp [afterStart?, hab, ih]
      · simp [afterStart?, hab, Ne.symm hab]

theorem isSome_cutAt?_iff {part text : List Char} : (cutAt? part text).isSome ↔ part <:+: text := by
  induction text with
  | nil => cases part <;> simp [cutAt?]
  | cons c text ih =>
    rw [List.infix_cons_iff, ← ih, cutAt?]
    cases hstart : afterStart? part (c :: text) with
    | some rest =>
      have hbegins : part <+: c :: text := ⟨rest, (afterStart?_eq_some_iff.mp hstart).symm⟩
      simp [hbegins]
    | none =>
      have hnot : ¬ part <+: c :: text := by
        rintro ⟨rest, hrest⟩
        cases hstart.symm.trans (afterStart?_eq_some_iff.mpr hrest.symm)
      simp [hnot]

theorem hasPart_iff {part text : String} : hasPart part text = true ↔ part.toList <:+: text.toList :=
  isSome_cutAt?_iff

/-- How many bytes a text takes. -/
def byteCount (cs : List Char) : Nat := (String.ofList cs).utf8ByteSize

/-- The first place of a part, in bytes from the beginning. -/
def findPart? (part text : String) : Option Nat :=
  (cutAt? part.toList text.toList).map fun (before, _) => byteCount before

/-- The last place of a part, in bytes from the beginning. -/
def findLastPart? (part text : String) : Option Nat :=
  (cutAt? part.toList.reverse text.toList.reverse).map fun (_, before) => byteCount before

/-- What follows the last place of a character. -/
def afterLast? (c : Char) : List Char → Option (List Char)
  | [] => none
  | d :: rest =>
    match afterLast? c rest with
    | some tail => some tail
    | none => if d == c then some rest else none

theorem afterLast?_eq_none_iff {c : Char} {cs : List Char} : afterLast? c cs = none ↔ c ∉ cs := by
  induction cs with
  | nil => simp [afterLast?]
  | cons d rest ih =>
    cases hrest : afterLast? c rest with
    | some tail =>
      have hmem : c ∈ rest := by simpa [hrest] using ih
      simp [afterLast?, hrest, hmem]
    | none =>
      have hnot : c ∉ rest := ih.mp hrest
      by_cases hd : d = c
      · simp [afterLast?, hrest, hd]
      · simp [afterLast?, hrest, hd, hnot, Ne.symm hd]

theorem afterLast?_eq_some_iff {c : Char} {cs tail : List Char} :
    afterLast? c cs = some tail ↔ c ∉ tail ∧ ∃ front, cs = front ++ c :: tail := by
  induction cs with
  | nil => simp [afterLast?]
  | cons d rest ih =>
    -- The character in front of the tail is the first one or comes later.
    have hsplit : (∃ front, d :: rest = front ++ c :: tail) ↔
        d = c ∧ rest = tail ∨ ∃ front, rest = front ++ c :: tail := by
      constructor
      · rintro ⟨_ | ⟨e, front⟩, h⟩
        · exact Or.inl (List.cons.inj h)
        · exact Or.inr ⟨front, (List.cons.inj h).2⟩
      · rintro (⟨rfl, rfl⟩ | ⟨front, rfl⟩)
        · exact ⟨[], rfl⟩
        · exact ⟨d :: front, rfl⟩
    rw [hsplit]
    cases hrest : afterLast? c rest with
    | some last =>
      have hmem : c ∈ rest := by
        apply Classical.byContradiction
        intro hnot
        rw [afterLast?_eq_none_iff.mpr hnot] at hrest
        cases hrest
      have hlater : ¬ (c ∉ tail ∧ d = c ∧ rest = tail) := fun h => h.1 (h.2.2 ▸ hmem)
      rw [afterLast?, hrest, and_or_left, or_iff_right hlater, ← ih, hrest]
    | none =>
      have hnot : c ∉ rest := afterLast?_eq_none_iff.mp hrest
      have hno : ¬ ∃ front, rest = front ++ c :: tail := by
        rintro ⟨front, rfl⟩
        simp at hnot
      rw [afterLast?, hrest, or_iff_left hno]
      by_cases hd : d = c
      · simp only [hd, beq_self_eq_true, if_true, Option.some.injEq, true_and]
        exact ⟨fun h => ⟨h ▸ hnot, h⟩, And.right⟩
      · simp [hd]

/-! ## Splitting -/

/-- Splits at the places of a part that is not empty, at most a number of times. The first
argument bounds the number of pieces. -/
private def splitAtPart (part : List Char) : Nat → Option Nat → List Char → List (List Char)
  | 0, _, cs => [cs]
  | _, some 0, cs => [cs]
  | bound + 1, limit, cs =>
    match cutAt? part cs with
    | none => [cs]
    | some (before, rest) => before :: splitAtPart part bound (limit.map (· - 1)) rest

/-- Splits in front of, between and behind all characters, at most a number of times. -/
private def splitAtChars : Option Nat → List Char → List (List Char)
  | some 0, cs => [cs]
  | _, [] => [[]]
  | limit, c :: cs => [c] :: splitAtChars (limit.map (· - 1)) cs

/-- The pieces of a text between the places of a part, of which at most a number are used. An
empty part is found around every character. -/
def splitOnPart (limit : Option Nat) (part text : String) : List String :=
  let cs := text.toList
  let pieces :=
    if part == "" then
      match limit with
      | some 0 => [cs]
      | limit => [] :: splitAtChars (limit.map (· - 1)) cs
    else splitAtPart part.toList (cs.length + 1) limit cs
  pieces.map String.ofList

/-- The words between blanks. -/
def words (text : String) : List String :=
  let (done, last) := text.toList.foldl (fun (done, word) c =>
    if isBlank c then (if word.isEmpty then (done, []) else (word.reverse :: done, []))
    else (done, c :: word)) ([], [])
  let done := if last.isEmpty then done else last.reverse :: done
  done.reverse.map String.ofList

/-- The words between blanks, of which only a number are split off; the rest stays together. The
first argument bounds the number of words. -/
private def splitWords : Nat → Nat → List Char → List (List Char)
  | 0, _, _ => []
  | bound + 1, limit, cs =>
    if cs.isEmpty then []
    else
      let start := cs.dropWhile isBlank
      if start.isEmpty then [[]]
      else if limit ≤ 1 then [start]
      else
        let word := start.takeWhile (!isBlank ·)
        word :: splitWords bound (limit - 1) (start.dropWhile (!isBlank ·))

/-- At most so many words; the last one holds the rest of the text. Blanks at the end that no word
follows are a word without characters. -/
def firstWords (limit : Nat) (text : String) : List String :=
  (splitWords (text.length + 1) limit text.toList).map String.ofList

/-- The lines of a text, without their ends. A line end at the end of the text starts no line. -/
def lines (text : String) : List String :=
  let pieces := text.splitOn "\n"
  let pieces := if pieces.getLast? == some "" then pieces.dropLast else pieces
  let last := pieces.length
  pieces.mapIdx fun i line =>
    if (i + 1 < last || text.endsWith "\n") && line.endsWith "\r" then (line.dropEnd 1).toString
    else line

/-- The lines of a text with their ends. -/
def linesWithEnds (text : String) : List String :=
  let pieces := text.splitOn "\n"
  let whole := pieces.dropLast.map (· ++ "\n")
  match pieces.getLast? with
  | some "" | none => whole
  | some rest => whole ++ [rest]

/-! ## Replacing -/

/-- Replaces the places of a part, at most a number of them. -/
def replacePart (limit : Option Nat) (part new text : String) : String :=
  match limit with
  | some 0 => text
  | _ => new.intercalate (splitOnPart limit part text)

/-! ## Trimming and case -/

/-- Removes some characters from the beginning. -/
def trimLeftOf (chars : List Char) (text : String) : String :=
  String.ofList (text.toList.dropWhile chars.contains)

/-- Removes some characters from the end. -/
def trimRightOf (chars : List Char) (text : String) : String :=
  String.ofList (text.toList.reverse.dropWhile chars.contains).reverse

/-- The first letter in upper and the rest in lower case. -/
def capitalize (text : String) : String :=
  match text.toList with
  | [] => ""
  | c :: rest => String.ofList (upperChar c) ++ lower (String.ofList rest)

/-- Whether a character is a mark of the basic alphabet. -/
def isMark (c : Char) : Bool :=
  let n := c.toNat
  (0x21 ≤ n && n ≤ 0x2f) || (0x3a ≤ n && n ≤ 0x40) || (0x5b ≤ n && n ≤ 0x60) ||
    (0x7b ≤ n && n ≤ 0x7e)

/-- Every word with its first letter in upper and the rest in lower case. -/
def titled (text : String) : String :=
  let (out, _) := text.toList.foldl (fun (out, fresh) c =>
    if isMark c || isBlank c then (c :: out, true)
    else ((if fresh then upperChar c else lowerChar c).reverse ++ out, false)) ([], true)
  String.ofList out.reverse

end SoftwareCensus.Text
