import SoftwareCensus.Proofs.Text.Trimming
import SoftwareCensus.Template.Render

/-!
# Conditions in and out of Braces

A condition is a list of conditions, and these may be lists again. What decides is the row of its
leaves, the parts that are no lists: the first one that does not hold says what becomes of the whole,
and nothing behind it is looked at.

An expression that is a leaf can be written as it is or in braces. The one is evaluated at once, the
other is first recognised as a single expression in a template, and both come down to the same
expression. All that can differ is the text that an error quotes.

## Main results

* `condition_eq_conditions_leaves` : a condition is decided by its leaves
* `decidedBy_of_leaves` : the first leaf that does not hold decides
* `evalExpression_alike` : an expression in two templates comes to the same but for the quoted text
* `condition_braced` : so does a leaf as it is and in braces
* `wrapped_condition_alike` : and so does a whole condition, at the same leaf
-/

namespace SoftwareCensus.Template

open Document

variable (lookup : Lookup)

/-! ## Leaves -/

mutual

/-- The parts of a condition that are no lists, in their order. -/
def leaves : Document → List Document
  | .list items => leavesOfItems items
  | d => [d]

/-- The leaves of the items of a list. -/
def leavesOfItems : List Document → List Document
  | [] => []
  | d :: rest => leaves d ++ leavesOfItems rest

end

/-- Conditions are looked at one after the other. -/
theorem conditions_cons (d : Document) (rest : List Document) :
    conditions lookup (d :: rest) =
      condition lookup d >>= fun b => if b then conditions lookup rest else .ok false := rfl

/-- Two rows of conditions are looked at one after the other. -/
theorem conditions_append (front back : List Document) :
    conditions lookup (front ++ back) =
      conditions lookup front >>= fun b => if b then conditions lookup back else .ok false := by
  induction front with
  | nil => rfl
  | cons d rest ih =>
    rw [List.cons_append, conditions_cons, conditions_cons, ih]
    -- An error or a condition that does not hold ends both sides at once.
    cases condition lookup d with
    | error e => rfl
    | ok b => cases b <;> rfl

/-- A row of one condition comes to what that one comes to. -/
theorem conditions_singleton (d : Document) : conditions lookup [d] = condition lookup d := by
  rw [conditions_cons]
  cases condition lookup d with
  | error e => rfl
  | ok b => cases b <;> rfl

mutual

/-- **A condition is decided by its leaves**, one after the other. -/
theorem condition_eq_conditions_leaves : ∀ d : Document,
    condition lookup d = conditions lookup (leaves d)
  | .list items => conditions_eq_conditions_leaves items
  | .null | .bool _ | .int _ | .float _ | .str _ | .map _ => (conditions_singleton lookup _).symm

/-- A row of conditions is decided by the leaves of all of them. -/
theorem conditions_eq_conditions_leaves : ∀ items : List Document,
    conditions lookup items = conditions lookup (leavesOfItems items)
  | [] => rfl
  | d :: rest => by
    rw [leavesOfItems, conditions_append, conditions_cons, condition_eq_conditions_leaves d,
      conditions_eq_conditions_leaves rest]

end

/-- Conditions that hold leave it to those behind them. -/
theorem conditions_append_of_hold {front : List Document}
    (h : ∀ d ∈ front, condition lookup d = .ok true) (back : List Document) :
    conditions lookup (front ++ back) = conditions lookup back := by
  -- By induction on the conditions in front.
  induction front with
  | nil => rfl
  | cons d rest ih =>
    obtain ⟨hd, hrest⟩ := List.forall_mem_cons.mp h
    rw [List.cons_append, conditions_cons, hd]
    exact ih hrest

/-- The first condition that does not hold decides. -/
theorem conditions_cons_of_ne {d : Document} (h : condition lookup d ≠ .ok true)
    (rest : List Document) : conditions lookup (d :: rest) = condition lookup d := by
  rw [conditions_cons]
  cases hd : condition lookup d with
  | error e => rfl
  | ok b =>
    cases b with
    | false => rfl
    | true => exact absurd hd h

/-- Whether a condition holds, with every leaf of it. -/
structure HoldsThroughout (c : Document) : Prop where
  leaf : ∀ d ∈ leaves c, condition lookup d = .ok true
  whole : condition lookup c = .ok true

/-- If all leaves hold, the condition does. -/
theorem holdsThroughout_of_leaves {c : Document}
    (h : ∀ d ∈ leaves c, condition lookup d = .ok true) : HoldsThroughout lookup c := by
  have happend := conditions_append_of_hold lookup h []
  rw [List.append_nil] at happend
  refine ⟨h, ?_⟩
  rw [condition_eq_conditions_leaves, happend]
  rfl

/-- Whether a leaf decides a condition: those in front of it hold, it does not, and the condition comes
to what it comes to. So does every condition with these leaves in front, whatever comes behind. -/
structure DecidedBy (c : Document) (front : List Document) (leaf : Document)
    (outcome : Except Error Bool) : Prop where
  begins : front ++ [leaf] <+: leaves c
  hold : ∀ d ∈ front, condition lookup d = .ok true
  ends : outcome ≠ .ok true
  decides : condition lookup leaf = outcome
  whole : condition lookup c = outcome
  unread : ∀ other, front ++ [leaf] <+: leaves other → condition lookup other = outcome

/-- **The first leaf that does not hold decides.** -/
theorem decidedBy_of_leaves {c leaf : Document} {front : List Document}
    (hleaves : front ++ [leaf] <+: leaves c) (hfront : ∀ d ∈ front, condition lookup d = .ok true)
    (hleaf : condition lookup leaf ≠ .ok true) :
    DecidedBy lookup c front leaf (condition lookup leaf) := by
  -- What stands behind the leaf plays no part in the argument, so it may be anything.
  have hunread : ∀ other, front ++ [leaf] <+: leaves other →
      condition lookup other = condition lookup leaf := by
    rintro other ⟨back, hother⟩
    rw [condition_eq_conditions_leaves, ← hother, List.append_assoc,
      conditions_append_of_hold lookup hfront]
    exact conditions_cons_of_ne lookup hleaf back
  exact ⟨hleaves, hfront, hleaf, rfl, hunread c hleaves, hunread⟩

/-- A list of conditions has a first one that does not hold, or they all hold. -/
theorem hold_or_exists_first (ds : List Document) :
    (∀ d ∈ ds, condition lookup d = .ok true) ∨
      ∃ front leaf back, ds = front ++ leaf :: back ∧
        (∀ d ∈ front, condition lookup d = .ok true) ∧ condition lookup leaf ≠ .ok true := by
  induction ds with
  | nil => exact .inl nofun
  | cons d rest ih =>
    -- The first condition is the one that is looked for, or it is found among the others.
    by_cases hd : condition lookup d = .ok true
    · rcases ih with hrest | ⟨front, leaf, back, rfl, hfront, hleaf⟩
      · exact .inl (List.forall_mem_cons.mpr ⟨hd, hrest⟩)
      · exact .inr ⟨d :: front, leaf, back, rfl, List.forall_mem_cons.mpr ⟨hd, hfront⟩, hleaf⟩
    · exact .inr ⟨[], d, rest, rfl, nofun, hd⟩

/-! ## The shape of a text in braces -/

/-- Whether a text is an expression as it is: no word for a truth value, and without any pair that a
template has. -/
structure Bare (e : String) : Prop where
  noWord : boolWord? e = none
  noBraces : hasPair '{' '{' e.toList = false
  noStatement : hasPair '{' '%' e.toList = false
  noEnd : hasPair '}' '}' e.toList = false
  noAngles : hasPair '<' '<' e.toList = false

instance (e : String) : Decidable (Bare e) :=
  decidable_of_iff
    (boolWord? e = none ∧ hasPair '{' '{' e.toList = false ∧ hasPair '{' '%' e.toList = false ∧
      hasPair '}' '}' e.toList = false ∧ hasPair '<' '<' e.toList = false)
    ⟨fun ⟨hword, hbraces, hstatement, hend, hangles⟩ =>
        ⟨hword, hbraces, hstatement, hend, hangles⟩,
      fun h => ⟨h.noWord, h.noBraces, h.noStatement, h.noEnd, h.noAngles⟩⟩

/-- An expression in braces. -/
def braced (e : String) : String := "\x7b\x7b " ++ e ++ " \x7d\x7d"

/-- The characters of an expression in braces. -/
theorem toList_braced (e : String) :
    (braced e).toList = '{' :: '{' :: ' ' :: (e.toList ++ [' ', '}', '}']) := by
  simp [braced]

/-- A character that is not the first one of a pair begins none. -/
theorem hasPair_cons_of_ne {a b c : Char} (h : c ≠ a) (cs : List Char) :
    hasPair a b (c :: cs) = hasPair a b cs := by
  cases cs with
  | nil => rfl
  | cons d rest => simp [hasPair, h]

/-- A character that is not the second one of a pair is not looked at together with what is before. -/
theorem hasPair_append_cons {a b c : Char} (h : c ≠ b) (front back : List Char) :
    hasPair a b (front ++ c :: back) = (hasPair a b front || hasPair a b (c :: back)) := by
  induction front with
  | nil => rfl
  | cons d rest ih =>
    -- The character stands right behind the first one, or further away.
    cases rest with
    | nil => simp [hasPair, h]
    | cons e rest =>
      simp only [List.cons_append] at ih ⊢
      rw [hasPair, hasPair, ih, Bool.or_assoc]

/-- Blanks around a text bring no pair into it. -/
theorem hasPair_spaced {a b : Char} (ha : ' ' ≠ a) (hb : ' ' ≠ b) (cs : List Char) :
    hasPair a b (' ' :: (cs ++ [' '])) = hasPair a b cs := by
  rw [hasPair_cons_of_ne ha, hasPair_append_cons hb]
  simp [hasPair]

/-- Blanks around a text are trimmed. -/
theorem trimList_spaced (cs : List Char) : Text.trimList (' ' :: (cs ++ [' '])) = Text.trimList cs := by
  have hblank : Text.isBlank ' ' = true := by decide
  rw [Text.trimList_cons_of_isBlank hblank, Text.trimList_concat_of_isBlank hblank]

/-- A text in braces is no word: it begins with a brace. -/
theorem boolWord?_braced (e : String) : boolWord? (braced e) = none := by
  -- Neither brace is a blank, so there is nothing to trim.
  have htrim : Text.trim (braced e) = braced e := by
    have hlist : Text.trimList (braced e).toList = (braced e).toList := by
      apply Text.trimList_eq_self
      · simp [toList_braced]
        decide
      · have hlast : (braced e).toList = ('{' :: '{' :: ' ' :: (e.toList ++ [' ', '}'])) ++ ['}'] := by
          simp [toList_braced]
        rw [hlast, List.getLast?_concat]
        simp
        decide
    rw [Text.trim, hlist, String.ofList_toList]
  -- Each of the words begins with another character.
  have hword : ∀ word : String, word.toList.head? ≠ some '{' →
      (Text.asciiLower (braced e) == word) = false := by
    intro word hfirst
    rw [beq_eq_false_iff_ne]
    rintro rfl
    apply hfirst
    simp [Text.asciiLower, toList_braced]
  unfold boolWord?
  simp only [htrim]
  rw [hword "true" (by decide), hword "yes" (by decide), hword "on" (by decide),
    hword "false" (by decide), hword "no" (by decide), hword "off" (by decide), hword "" (by decide)]
  rfl

/-! ## One expression in two texts -/

/-- Whether two errors are the same but for the text that they quote. Only an expression that cannot be
read makes its error quote the text that it stands in. -/
structure Error.SameButSource (source source' : String) (e e' : Error) : Prop where
  kind : e.kind = e'.kind
  quoted : e = e' ∨ ∃ f, e = .ofFault source none f ∧ e' = .ofFault source' none f

/-- An error is the same as itself, whatever texts are compared. -/
theorem Error.sameButSource_self (source source' : String) (e : Error) :
    SameButSource source source' e e := ⟨rfl, .inl rfl⟩

/-- A fault gives errors that differ in the text only. -/
theorem Error.sameButSource_ofFault (source source' : String) (f : Fault) :
    SameButSource source source' (.ofFault source none f) (.ofFault source' none f) :=
  ⟨by cases f <;> rfl, .inr ⟨f, rfl, rfl⟩⟩

/-- An expression that can be read comes to the same in every template. -/
theorem evalExpression_of_read {expression : List Char} {e : Expr}
    (hread : Expr.read (String.ofList expression) = .ok e) (template template' : List Char) :
    evalExpression lookup expression template = evalExpression lookup expression template' := by
  unfold evalExpression
  simp only [hread]

/-- An expression that cannot be read fails with the template that it stands in. -/
theorem evalExpression_of_not_read {expression : List Char} {f : Fault}
    (hread : Expr.read (String.ofList expression) = .error f) (template : List Char) :
    evalExpression lookup expression template = .error (.ofFault (String.ofList template) none f) := by
  unfold evalExpression
  simp only [hread]
  rfl

/-- **An expression comes to the same in two templates**, but for the text that is quoted if it cannot
be read. -/
theorem evalExpression_alike (expression template template' : List Char) :
    (∃ d, evalExpression lookup expression template = .ok d ∧
      evalExpression lookup expression template' = .ok d) ∨
    ∃ e e', e.SameButSource (String.ofList template) (String.ofList template') e' ∧
      evalExpression lookup expression template = .error e ∧
      evalExpression lookup expression template' = .error e' := by
  cases hread : Expr.read (String.ofList expression) with
  -- It can be read, so no template is quoted.
  | ok read =>
    rw [evalExpression_of_read lookup hread template template']
    cases evalExpression lookup expression template' with
    | ok d => exact .inl ⟨d, rfl, rfl⟩
    | error e => exact .inr ⟨e, e, e.sameButSource_self _ _, rfl, rfl⟩
  -- It cannot, and each error quotes its own template.
  | error f =>
    exact .inr ⟨_, _, Error.sameButSource_ofFault _ _ f,
      evalExpression_of_not_read lookup hread template,
      evalExpression_of_not_read lookup hread template'⟩

/-! ## An expression as it is and in braces -/

/-- A bare expression has its blanks removed and is evaluated. -/
theorem evaluate_bare {e : String} (h : Bare e) :
    evaluate lookup e = evalExpression lookup (Text.trimList e.toList) e.toList := by
  -- Without angles there is nothing to normalise, and without a pair there is no markup.
  have hnormal : normalize e.toList = e.toList := by simp [normalize, h.noAngles]
  have hmarkup : hasMarkup (normalize e.toList) = false := by
    simp [hnormal, hasMarkup, h.noBraces, h.noStatement]
  rw [evaluate_of_not_hasMarkup lookup hmarkup, hnormal]

/-- The braces around a bare expression are recognised, and what is between them is evaluated. -/
theorem evaluate_braced {e : String} (h : Bare e) :
    evaluate lookup (braced e) =
      evalExpression lookup (Text.trimList e.toList) (braced e).toList := by
  -- Neither the braces nor the blanks make a pair with what the expression begins or ends with.
  have hangles : hasPair '<' '<' (braced e).toList = false := by
    rw [toList_braced, hasPair_cons_of_ne (by decide), hasPair_cons_of_ne (by decide),
      hasPair_cons_of_ne (by decide), hasPair_append_cons (by decide), h.noAngles]
    rfl
  have hnormal : normalize (braced e).toList = (braced e).toList := by simp [normalize, hangles]
  have hmarkup : hasMarkup (normalize (braced e).toList) = true := by
    rw [hnormal, toList_braced]
    rfl
  have hinner : hasMarkup (' ' :: (e.toList ++ [' '])) = false := by
    rw [hasMarkup, hasPair_spaced (by decide) (by decide), hasPair_spaced (by decide) (by decide),
      h.noBraces, h.noStatement]
    rfl
  have hend : hasPair '}' '}' (' ' :: (e.toList ++ [' '])) = false := by
    rw [hasPair_spaced (by decide) (by decide), h.noEnd]
  have hsingle : singleExpression? (normalize (braced e).toList) =
      some (Text.trimList e.toList) := by
    rw [hnormal, toList_braced, singleExpression?_spaced hinner hend, trimList_spaced]
  rw [evaluate_of_hasMarkup lookup hmarkup, renderText_of_singleExpression lookup hmarkup hsingle,
    hnormal]

/-- Whether an expression as it is and the same in braces come to the same as conditions: to one
truth value, or to one error, but for the texts quoted in it. -/
inductive Alike (e : String) : Except Error Bool → Except Error Bool → Prop
  | ok (b : Bool) : Alike e (.ok b) (.ok b)
  | error {cause cause' : Error} (h : cause.SameButSource e (braced e) cause') :
    Alike e (.error (.condition e cause)) (.error (.condition (braced e) cause'))

/-- Expressions that come to the same hold together. -/
theorem Alike.eq_ok_iff {e : String} {r r' : Except Error Bool} (h : Alike e r r') (b : Bool) :
    r = .ok b ↔ r' = .ok b := by
  cases h with
  | ok _ => rfl
  | error _ => simp

/-- A text that is no word for a truth value is evaluated. -/
theorem condition_str_of_noWord {s : String} (h : boolWord? s = none) :
    condition lookup (.str s) = match evaluate lookup s with
      | .ok d => .ok (holdsAsWord d)
      | .error e => .error (.condition s e) := by
  cases heval : evaluate lookup s with
  | ok d => simp only [condition, h, heval]
  | error e => simp only [condition, h, heval]

/-- **A leaf as it is and in braces comes to the same.** -/
theorem condition_braced {e : String} (h : Bare e) :
    Alike e (condition lookup (.str e)) (condition lookup (.str (braced e))) := by
  rw [condition_str_of_noWord lookup h.noWord, condition_str_of_noWord lookup (boolWord?_braced e),
    evaluate_bare lookup h, evaluate_braced lookup h]
  -- Both come down to one expression, in two templates.
  rcases evalExpression_alike lookup (Text.trimList e.toList) e.toList (braced e).toList with
    ⟨d, hbare, hbraced⟩ | ⟨cause, cause', hsame, hbare, hbraced⟩
  · rw [hbare, hbraced]
    exact .ok _
  · rw [hbare, hbraced]
    rw [String.ofList_toList, String.ofList_toList] at hsame
    exact .error hsame

/-! ## Whole conditions -/

mutual

/-- A condition with all its texts in braces. -/
def wrapped : Document → Document
  | .str e => .str (braced e)
  | .list items => .list (wrappedItems items)
  | d => d

/-- The items of a list with all their texts in braces. -/
def wrappedItems : List Document → List Document
  | [] => []
  | d :: rest => wrapped d :: wrappedItems rest

end

mutual

/-- Braces around the texts leave the leaves where they are. -/
theorem leaves_wrapped : ∀ d : Document, leaves (wrapped d) = (leaves d).map wrapped
  | .list items => leavesOfItems_wrappedItems items
  | .null | .bool _ | .int _ | .float _ | .str _ | .map _ => rfl

/-- The leaves of a row of conditions stay where they are, too. -/
theorem leavesOfItems_wrappedItems : ∀ items : List Document,
    leavesOfItems (wrappedItems items) = (leavesOfItems items).map wrapped
  | [] => rfl
  | d :: rest => by
    rw [wrappedItems, leavesOfItems, leavesOfItems, List.map_append, leaves_wrapped d,
      leavesOfItems_wrappedItems rest]

end

/-- Whether a condition is made of bare expressions. -/
def Plain (c : Document) : Prop := ∀ leaf ∈ leaves c, ∃ e, leaf = .str e ∧ Bare e

/-- Bare expressions that hold do so in braces. -/
theorem hold_wrapped {ds : List Document} (hbare : ∀ d ∈ ds, ∃ e, d = .str e ∧ Bare e)
    (h : ∀ d ∈ ds, condition lookup d = .ok true) :
    ∀ d ∈ ds.map wrapped, condition lookup d = .ok true := by
  intro d' hd'
  obtain ⟨d, hd, rfl⟩ := List.mem_map.mp hd'
  obtain ⟨e, rfl, he⟩ := hbare d hd
  exact ((condition_braced lookup he).eq_ok_iff true).mp (h _ hd)

/-- **A condition as it is and with its expressions in braces comes to the same**: either all leaves
hold in both, or one leaf decides both and comes to the same there, and nothing behind it is read. -/
theorem wrapped_condition_alike {c : Document} (h : Plain c) :
    (HoldsThroughout lookup c ∧ HoldsThroughout lookup (wrapped c)) ∨
      ∃ front e r r', Alike e r r' ∧ DecidedBy lookup c front (.str e) r ∧
        DecidedBy lookup (wrapped c) (front.map wrapped) (.str (braced e)) r' := by
  -- All leaves hold, or one is the first that does not.
  rcases hold_or_exists_first lookup (leaves c) with
    hall | ⟨front, leaf, back, hleaves, hfront, hleaf⟩
  · have hwrapped := hold_wrapped lookup h hall
    rw [← leaves_wrapped] at hwrapped
    left
    constructor
    · apply holdsThroughout_of_leaves
      exact hall
    · apply holdsThroughout_of_leaves
      exact hwrapped
  · -- The leaf has the same ones in front of it in braces, and they hold there, too.
    obtain ⟨e, rfl, he⟩ := h leaf (by simp [hleaves])
    have halike := condition_braced lookup he
    have hbare : ∀ d ∈ front, ∃ e, d = .str e ∧ Bare e :=
      fun d hd => h d (by simp [hleaves, hd])
    have hprefix : front ++ [.str e] <+: leaves c := ⟨back, by simp [hleaves]⟩
    have hwrapped : front.map wrapped ++ [.str (braced e)] <+: leaves (wrapped c) := by
      rw [leaves_wrapped]
      simpa [wrapped] using hprefix.map wrapped
    refine .inr ⟨front, e, _, _, halike, decidedBy_of_leaves lookup hprefix hfront hleaf, ?_⟩
    apply decidedBy_of_leaves lookup hwrapped (hold_wrapped lookup hbare hfront)
    exact fun hholds => hleaf ((halike.eq_ok_iff true).mpr hholds)

/-- Three expressions, the first of which is false. -/
private def shutPort : Document := .list [.list [.str "0", .str "port > 80"], .str "port < 90"]

/-- Without a port, neither spelling goes on to the expressions that ask for one. -/
theorem wrapped_condition_alike_shutPort : Plain shutPort ∧
    condition (fun _ => none) shutPort = .ok false ∧
    condition (fun _ => none) (wrapped shutPort) = .ok false := by
  -- The three leaves are texts without braces, and none is a word for a truth value.
  have hplain : Plain shutPort := by
    intro leaf hleaf
    have hcases : leaf = .str "0" ∨ leaf = .str "port > 80" ∨ leaf = .str "port < 90" := by
      simpa [shutPort, leaves, leavesOfItems] using hleaf
    rcases hcases with rfl | rfl | rfl
    · exact ⟨_, rfl, by decide +kernel⟩
    · exact ⟨_, rfl, by decide +kernel⟩
    · exact ⟨_, rfl, by decide +kernel⟩
  have hfalse : condition (fun _ => none) shutPort = .ok false := by decide +kernel
  refine ⟨hplain, hfalse, ?_⟩
  rcases wrapped_condition_alike (fun _ => none) hplain with
    ⟨hholds, -⟩ | ⟨front, e, r, r', halike, hbare, hbraced⟩
  · have hwhole := hholds.whole
    rw [hfalse] at hwhole
    cases hwhole
  · have houtcome : r = .ok false := hbare.whole.symm.trans hfalse
    rw [hbraced.whole]
    exact (halike.eq_ok_iff false).mp houtcome

end SoftwareCensus.Template
