import SoftwareCensus.Plugin.Checks
import SoftwareCensus.Proofs.Template.MissingVariables

/-!
# Failed Assertions

An assertion looks at its conditions in their order. The first one that does not hold decides, and no
later one is looked at. What is left then is the message, which is rendered from `msg` and `fail_msg`:
one of these that cannot be rendered takes the place of the assertion, whether or not its text is needed.

## Main results

* `assertAll_of_failed` : a condition that does not hold, behind some that do, ends an assertion
* `failureMessage_cases` : there is a message, or one of its two arguments is to blame
* `failed_assertion_outcome` : an assertion fails as such exactly when both can be rendered
* `unrenderable_message_hides_assertion` : valid arguments whose assertion fails as something else
-/

namespace SoftwareCensus.Plugin

variable {call : Call} {key : String}

/-! ## Messages -/

/-- An argument that cannot be rendered. -/
def Unrenderable (call : Call) (key : String) (e : Template.Error) : Prop :=
  ∃ raw, call.arg? key = some raw ∧ Template.render call.lookup raw = .error e

/-- What keeps a message from being rendered is passed on. -/
theorem messageOr_of_unrenderable {e : Template.Error} (fallback : String)
    (h : Unrenderable call key e) : messageOr call key fallback = .error (.template e) := by
  obtain ⟨raw, harg, hrender⟩ := h
  cases raw with
  | null => cases hrender
  | _ => simp only [messageOr, harg, Option.getD_some, hrender, Except.mapError, Except.map]

/-- Without such an argument there is a message. -/
theorem exists_messageOr (fallback : String) (h : ∀ e, ¬ Unrenderable call key e) :
    ∃ m, messageOr call key fallback = .ok m := by
  unfold messageOr
  cases harg : call.arg? key with
  | none => exact ⟨fallback, rfl⟩
  | some raw =>
    have hrender : ∃ d, Template.render call.lookup raw = .ok d := by
      cases hraw : Template.render call.lookup raw with
      | ok d => exact ⟨d, rfl⟩
      | error e => exact absurd ⟨raw, harg, hraw⟩ (h e)
    obtain ⟨d, hrender⟩ := hrender
    cases raw with
    | null => exact ⟨fallback, rfl⟩
    | _ => exact ⟨d.display, by simp only [Option.getD_some, hrender, Except.mapError, Except.map]⟩

/-- The message of an assertion that fails. -/
def failureMessage (call : Call) : Except Error String := do
  let fallback ← messageOr call "msg" "Assertion failed"
  messageOr call "fail_msg" fallback

/-- Once its fallback is there the message is that of the second argument. -/
theorem failureMessage_of_fallback {fallback : String}
    (h : messageOr call "msg" "Assertion failed" = .ok fallback) :
    failureMessage call = messageOr call "fail_msg" fallback := by
  rw [failureMessage, h]
  rfl

/-- **There is a message, or an argument is to blame.** -/
theorem failureMessage_cases (call : Call) :
    ((∃ m, failureMessage call = .ok m) ∧
      ∀ key ∈ ["msg", "fail_msg"], ∀ e, ¬ Unrenderable call key e) ∨
    ∃ key ∈ ["msg", "fail_msg"], ∃ e, Unrenderable call key e ∧
      failureMessage call = .error (.template e) := by
  by_cases hmsg : ∃ e, Unrenderable call "msg" e
  · obtain ⟨e, hmsg⟩ := hmsg
    refine Or.inr ⟨"msg", by simp, e, hmsg, ?_⟩
    rw [failureMessage, messageOr_of_unrenderable _ hmsg]
    rfl
  have hmsg : ∀ e, ¬ Unrenderable call "msg" e := fun e he => hmsg ⟨e, he⟩
  obtain ⟨fallback, hfallback⟩ := exists_messageOr "Assertion failed" hmsg
  rw [failureMessage_of_fallback hfallback]
  -- The fallback is there; it is up to the other argument whether its text counts.
  by_cases hfail : ∃ e, Unrenderable call "fail_msg" e
  · obtain ⟨e, hfail⟩ := hfail
    exact Or.inr ⟨"fail_msg", by simp, e, hfail, messageOr_of_unrenderable _ hfail⟩
  · have hfail : ∀ e, ¬ Unrenderable call "fail_msg" e := fun e he => hfail ⟨e, he⟩
    refine Or.inl ⟨exists_messageOr fallback hfail, ?_⟩
    simp only [List.forall_mem_cons]
    exact ⟨hmsg, hfail, fun _ h => absurd h List.not_mem_nil⟩

/-! ## Conditions -/

/-- The conditions of an assertion. -/
def assertedConditions (call : Call) : List Document :=
  match call.arg? "that" with
  | some (.list items) => items
  | some d => [d]
  | none => []

section Failed

variable {passed rest : List Document} {c : Document}

/-- A condition that does not hold ends an assertion with its message, whatever stands behind it. -/
theorem assertAll_of_failed (hpassed : ∀ p ∈ passed, Template.condition call.lookup p = .ok true)
    (hc : Template.condition call.lookup c = .ok false) :
    assertAll call (passed ++ c :: rest) =
      (failureMessage call).bind fun m => .error (.assertion m) := by
  -- By induction on the conditions that hold: each hands over to the next.
  induction passed with
  | nil =>
    rw [List.nil_append, assertAll, hc, failureMessage]
    show ((messageOr call "msg" "Assertion failed").bind fun fallback =>
      (messageOr call "fail_msg" fallback).bind fun m => .error (.assertion m)) = _
    cases messageOr call "msg" "Assertion failed" with
    | ok fallback => rfl
    | error e => rfl
  | cons p passed ih =>
    obtain ⟨hp, hpassed⟩ := List.forall_mem_cons.mp hpassed
    rw [List.cons_append, assertAll, hp]
    exact ih hpassed

/-- The message is all that is left of an assertion that fails. -/
theorem run_assertPlugin_of_failed (hthat : assertedConditions call = passed ++ c :: rest)
    (hpassed : ∀ p ∈ passed, Template.condition call.lookup p = .ok true)
    (hc : Template.condition call.lookup c = .ok false) :
    assertPlugin.run call =
      call.answer ((failureMessage call).bind fun m => .error (.assertion m)) := by
  show call.answer ((assertAll call (assertedConditions call)).bind _) = _
  rw [hthat, assertAll_of_failed hpassed hc]
  cases failureMessage call with
  | ok m => rfl
  | error e => rfl

/-- **How a failed assertion ends.** As an assertion with its message, if neither of the arguments that
the message is made of is in the way, and otherwise with the error of one that is. The message of
success plays no part in it, and the facts stay as they are. -/
theorem failed_assertion_outcome (hthat : assertedConditions call = passed ++ c :: rest)
    (hpassed : ∀ p ∈ passed, Template.condition call.lookup p = .ok true)
    (hc : Template.condition call.lookup c = .ok false) :
    (∃ m, failureMessage call = .ok m ∧ assertPlugin.run call = call.answer (.error (.assertion m)) ∧
      ∀ key ∈ ["msg", "fail_msg"], ∀ e, ¬ Unrenderable call key e) ∨
    ∃ key ∈ ["msg", "fail_msg"], ∃ e, Unrenderable call key e ∧
      assertPlugin.run call = call.answer (.error (.template e)) := by
  rw [run_assertPlugin_of_failed hthat hpassed hc]
  rcases failureMessage_cases call with ⟨⟨m, hm⟩, hmessages⟩ | ⟨key, hkey, e, he, hm⟩
  · exact Or.inl ⟨m, hm, by rw [hm]; rfl, hmessages⟩
  · exact Or.inr ⟨key, hkey, e, he, by rw [hm]; rfl⟩

end Failed

/-- An assertion with a message. Its second condition does not hold and its third is no expression. -/
private def unequal : Call where
  args := .map [("fail_msg", .str "unequal"), ("that", .list [.bool true, .str "1 == 2", .str "(("])]
  facts := .map []
  vars := fun _ => none

/-- The message of this assertion is a plain text, so it fails as an assertion. -/
theorem failed_assertion_outcome_unequal :
    ∃ m, failureMessage unequal = .ok m ∧
      assertPlugin.run unequal = unequal.answer (.error (.assertion m)) := by
  have hthat : assertedConditions unequal = [.bool true] ++ .str "1 == 2" :: [.str "(("] := rfl
  have hpassed : ∀ p ∈ [Document.bool true], Template.condition unequal.lookup p = .ok true := by
    simp [Template.condition]
  have hc : Template.condition unequal.lookup (.str "1 == 2") = .ok false := by decide +kernel
  rcases failed_assertion_outcome hthat hpassed hc with ⟨m, hm, hrun, -⟩ | ⟨key, hkey, e, he, -⟩
  · exact ⟨m, hm, hrun⟩
  · obtain ⟨raw, harg, hrender⟩ := he
    rcases List.mem_pair.mp hkey with rfl | rfl
    · cases harg
    · obtain rfl := Option.some.inj harg
      cases hrender

/-- An assertion whose message refers to a variable that is not there. -/
private def unspeakable : Call where
  args := .map [("fail_msg", .str "\x7b\x7b nope \x7d\x7d"), ("that", .str "1 == 2")]
  facts := .map []
  vars := fun _ => none

/-- **A message hides an assertion.** These arguments are valid and their only condition does not hold,
and yet the failure is one of templates, of the kind that a task can be told to ignore. -/
theorem unrenderable_message_hides_assertion :
    assertPlugin.validate unspeakable.args = .ok unspeakable.args ∧
    assertedConditions unspeakable = [.str "1 == 2"] ∧
    Template.condition unspeakable.lookup (.str "1 == 2") = .ok false ∧
    assertPlugin.run unspeakable = unspeakable.answer (.error (.template (.undefined "nope"))) := by
  have hthat : assertedConditions unspeakable = [] ++ .str "1 == 2" :: [] := rfl
  have hcondition : Template.condition unspeakable.lookup (.str "1 == 2") = .ok false := by
    decide +kernel
  have hmessage : Unrenderable unspeakable "fail_msg" (.undefined "nope") := by
    refine ⟨_, rfl, ?_⟩
    have hmissing : Template.Missing unspeakable.lookup "nope" := ⟨rfl, by decide⟩
    obtain ⟨first, hfirst, -, hrender⟩ := Template.renderText_of_missing
      (s := "\x7b\x7b nope \x7d\x7d") (r := ⟨"nope".toList, ["nope"]⟩) (by decide +kernel)
      (by decide) hmissing (List.mem_singleton_self "nope") Template.guardsUndefined_nope
    rwa [List.mem_singleton.mp hfirst] at hrender
  -- Nothing is said under `msg`, so it is the other argument that counts.
  have hfallback : messageOr unspeakable "msg" "Assertion failed" = .ok "Assertion failed" := rfl
  have hfailure : failureMessage unspeakable = .error (.template (.undefined "nope")) := by
    rw [failureMessage_of_fallback hfallback, messageOr_of_unrenderable _ hmessage]
  refine ⟨rfl, hthat, hcondition, ?_⟩
  rw [run_assertPlugin_of_failed hthat (by simp) hcondition, hfailure]
  rfl

end SoftwareCensus.Plugin
