import Mathlib
import SoftwareCensus.Template.Render

/-!
# Missing Variables

The variables that a text refers to are looked up before any of it is evaluated, and one that is not
there ends the evaluation at once. Only a text that mentions what deals with undefined values is spared
that, and it is spared by its letters alone: a text that mentions such a word anywhere, be it inside a
literal, is evaluated with the missing variable undefined.

## Main results

* `bindings_of_missing` : without such a mention a missing variable is an error
* `missing_variable_is_error` : so it is when the text is rendered, evaluated or taken as a condition
* `mention_hides_missing_variable` : a literal that mentions such a word hides a missing variable
-/

namespace SoftwareCensus.Template

/-! ## What a text refers to -/

/-- What is known of a text before it is evaluated. -/
structure Reading where
  /-- The text that is searched for mentions of what deals with undefined values. -/
  text : List Char
  /-- The variables that it refers to without binding them itself. -/
  names : List String
  deriving DecidableEq

/-- The reading of an expression; `none` if it is malformed. -/
def Reading.ofExpression? (text : List Char) : Option Reading :=
  match Expr.read (String.ofList text) with
  | .ok e => some ⟨text, e.freeNames⟩
  | .error _ => none

/-- The reading of a text with markup; `none` if it is malformed. -/
def Reading.ofMarkup? (text : List Char) : Option Reading :=
  match singleExpression? text with
  | some inner => ofExpression? inner
  | none =>
    match readTemplate (String.ofList text) with
    | .ok body => some ⟨text, freeNamesOf body⟩
    | .error _ => none

/-- The reading of a text that is rendered. Without markup it refers to nothing. -/
def Reading.ofTemplate? (s : String) : Option Reading :=
  let cs := normalize s.toList
  if hasMarkup cs then ofMarkup? cs else some ⟨cs, []⟩

/-- The reading of a text that is evaluated. Without markup it is an expression. -/
def Reading.ofBare? (s : String) : Option Reading :=
  let cs := normalize s.toList
  if hasMarkup cs then ofMarkup? cs else ofExpression? (Text.trimList cs)

/-- A variable that neither the scope nor the library has. -/
def Missing (lookup : Lookup) (name : String) : Prop :=
  lookup name = none ∧ globalNames.contains name = false

/-! ## Missing variables -/

variable {lookup : Lookup} {name : String}

/-- **A missing variable is an error** before anything is evaluated, unless the text mentions what
deals with undefined values. The error names a variable that is missing. -/
theorem bindings_of_missing {names : List String} {text : List Char} (hmissing : Missing lookup name)
    (hname : name ∈ names) (hguard : guardsUndefined text = false) :
    ∃ first ∈ names, Missing lookup first ∧ bindings lookup names text = .error (.undefined first) := by
  have hmem : ∀ other,
      other ∈ names.filter (fun name => (lookup name).isNone && !globalNames.contains name) ↔
        other ∈ names ∧ Missing lookup other := by
    intro other
    simp [List.mem_filter, Missing]
  unfold bindings
  dsimp only
  split
  case h_1 hsorted =>
    have hperm := List.mergeSort_perm _ _ |>.symm.trans (.of_eq hsorted)
    cases hperm.mem_iff.mp ((hmem name).mpr ⟨hname, hmissing⟩)
  case h_2 first rest hsorted =>
    have hperm := List.mergeSort_perm _ _ |>.symm.trans (.of_eq hsorted)
    obtain ⟨hfirst, hfirstMissing⟩ := (hmem first).mp (hperm.mem_iff.mpr (List.mem_cons_self ..))
    exact ⟨first, hfirst, hfirstMissing, by simp [hguard]⟩

/-- The same of an expression that is evaluated. -/
theorem evalExpression_of_missing {r : Reading} {expression template : List Char}
    (hread : Reading.ofExpression? expression = some r) (hmissing : Missing lookup name)
    (hname : name ∈ r.names) (hguard : guardsUndefined r.text = false) :
    ∃ first ∈ r.names, Missing lookup first ∧
      evalExpression lookup expression template = .error (.undefined first) := by
  unfold Reading.ofExpression? at hread
  cases he : Expr.read (String.ofList expression) with
  | error f => simp only [he, reduceCtorEq] at hread
  | ok e =>
    simp only [he, Option.some.injEq] at hread
    subst hread
    obtain ⟨first, hfirst, hfirstMissing, hbindings⟩ := bindings_of_missing hmissing hname hguard
    exact ⟨first, hfirst, hfirstMissing,
      evalExpression_of_bindings_eq_error lookup template he hbindings⟩

/-- The same of a text that is rendered. -/
theorem renderText_of_missing {s : String} {r : Reading}
    (hread : Reading.ofMarkup? (normalize s.toList) = some r)
    (hmarkup : hasMarkup (normalize s.toList) = true) (hmissing : Missing lookup name)
    (hname : name ∈ r.names) (hguard : guardsUndefined r.text = false) :
    ∃ first ∈ r.names, Missing lookup first ∧ renderText lookup s = .error (.undefined first) := by
  unfold Reading.ofMarkup? at hread
  split at hread
  case h_1 inner hsingle =>
    rw [renderText_of_singleExpression lookup hmarkup hsingle]
    exact evalExpression_of_missing hread hmissing hname hguard
  case h_2 hsingle =>
    split at hread
    case h_1 body hbody =>
      obtain rfl := Option.some.inj hread
      obtain ⟨first, hfirst, hfirstMissing, hbindings⟩ := bindings_of_missing hmissing hname hguard
      exact ⟨first, hfirst, hfirstMissing,
        renderText_of_bindings_eq_error lookup hmarkup hsingle hbody hbindings⟩
    case h_2 => cases hread

/-! ## Texts of every use -/

/-- **Referring to a missing variable is an error** in whatever way a text is used: rendered, evaluated or
taken as a condition. The text must not mention what deals with undefined values; a word for a truth
value is no reference. -/
theorem missing_variable_is_error {s : String} {r : Reading} (hmissing : Missing lookup name)
    (hname : name ∈ r.names) (hguard : guardsUndefined r.text = false) :
    (Reading.ofTemplate? s = some r →
      ∃ first ∈ r.names, Missing lookup first ∧ renderText lookup s = .error (.undefined first)) ∧
    (Reading.ofBare? s = some r →
      ∃ first ∈ r.names, Missing lookup first ∧ evaluate lookup s = .error (.undefined first)) ∧
    (Reading.ofBare? s = some r → boolWord? s = none →
      ∃ first ∈ r.names, Missing lookup first ∧
        condition lookup (.str s) = .error (.condition s (.undefined first))) := by
  -- A condition is evaluated, so its part follows from the one before.
  have hevaluate : Reading.ofBare? s = some r →
      ∃ first ∈ r.names, Missing lookup first ∧ evaluate lookup s = .error (.undefined first) := by
    intro hread
    cases hmarkup : hasMarkup (normalize s.toList) with
    | true =>
      have hread : Reading.ofMarkup? (normalize s.toList) = some r := by
        simpa [Reading.ofBare?, hmarkup] using hread
      rw [evaluate_of_hasMarkup lookup hmarkup]
      exact renderText_of_missing hread hmarkup hmissing hname hguard
    | false =>
      have hread : Reading.ofExpression? (Text.trimList (normalize s.toList)) = some r := by
        simpa [Reading.ofBare?, hmarkup] using hread
      rw [evaluate_of_not_hasMarkup lookup hmarkup]
      exact evalExpression_of_missing hread hmissing hname hguard
  refine ⟨?rendered, hevaluate, ?condition⟩
  case rendered =>
    intro hread
    cases hmarkup : hasMarkup (normalize s.toList) with
    | true =>
      have hread : Reading.ofMarkup? (normalize s.toList) = some r := by
        simpa [Reading.ofTemplate?, hmarkup] using hread
      exact renderText_of_missing hread hmarkup hmissing hname hguard
    | false =>
      -- Without markup there is no name that could be missing.
      have hnone : (⟨normalize s.toList, []⟩ : Reading) = r := by
        simpa [Reading.ofTemplate?, hmarkup] using hread
      subst hnone
      cases hname
  case condition =>
    intro hread hword
    obtain ⟨first, hfirst, hfirstMissing, hvalue⟩ := hevaluate hread
    refine ⟨first, hfirst, hfirstMissing, ?_⟩
    rw [condition, hword]
    simp only [hvalue]

/-- A name that mentions nothing of what deals with undefined values. -/
theorem guardsUndefined_nope : guardsUndefined "nope".toList = false := by cbv

/-- A text that refers to one variable, in a scope without any. -/
theorem missing_variable_of_empty_scope :
    (∃ first ∈ ["nope"], Missing (fun _ => none) first ∧
      renderText (fun _ => none) "\x7b\x7b nope \x7d\x7d" = .error (.undefined first)) ∧
    (∃ first ∈ ["nope"], Missing (fun _ => none) first ∧
      condition (fun _ => none) (.str "\x7b\x7b nope \x7d\x7d") =
        .error (.condition "\x7b\x7b nope \x7d\x7d" (.undefined first))) := by
  have hmissing : Missing (fun _ => none) "nope" := ⟨rfl, by decide⟩
  have h := missing_variable_is_error (s := "\x7b\x7b nope \x7d\x7d")
    (r := ⟨"nope".toList, ["nope"]⟩) hmissing (List.mem_singleton_self _) guardsUndefined_nope
  exact ⟨h.1 (by decide +kernel), h.2.2 (by decide +kernel) (by decide +kernel)⟩

/-- **A mention hides a missing variable.** This text applies no filter and no test, and yet it can be
evaluated in a scope without the variable that it refers to: its literal reads like a filter that deals
with undefined values. Whether the variable is there does not matter then, as what comes first decides. -/
theorem mention_hides_missing_variable :
    Expr.read "true or missing == 'default'" =
      .ok (.binary .or (.const (.bool true))
        (.binary .eq (.var "missing") (.const (.text "default")))) ∧
    (Reading.ofBare? "true or missing == 'default'").map Reading.names = some ["missing"] ∧
    Missing (fun _ => none) "missing" ∧ boolWord? "true or missing == 'default'" = none ∧
    condition (fun _ => none) (.str "true or missing == 'default'") = .ok true ∧
    (evaluate (fun _ => none) "true or missing == 'default'").map Document.asBool? =
      .ok (some true) ∧
    (renderText (fun _ => none) "\x7b\x7b true or missing == 'default' \x7d\x7d").map
      Document.asBool? = .ok (some true) :=
  ⟨rfl, rfl, ⟨rfl, by decide⟩, by decide +kernel, by decide +kernel, by decide +kernel,
    by decide +kernel⟩

end SoftwareCensus.Template
