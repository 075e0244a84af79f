import SoftwareCensus.Proofs.Tasks.RunLaw

/-!
# Calls of Plugins

A plugin works on a copy of the facts. A call that fails before the plugin is called, inside it, or
because it takes too long leaves the context as it was. The copy takes the place of the facts as soon
as the plugin succeeds, though, and that is before its result is looked at: a call that fails because
of what the result asks for leaves the copy behind.

## Main results

* `Interpreter.adopt_cases` : which results are merged into the facts, and what becomes of the others
* `Interpreter.failed_call_context` : what a call that fails leaves behind
-/

namespace SoftwareCensus.Tasks

open Run

theorem ofName_eq_ok_iff {s : String} {policy : ListMerge} :
    ListMerge.ofName s = .ok policy ↔ s = policy.name := by
  constructor
  · intro h
    rw [ListMerge.ofName] at h
    split at h
    next found hfound =>
      obtain rfl : found = policy := Except.ok.inj h
      have hname : (found.name == s) = true := by simpa using List.find?_some hfound
      exact (beq_iff_eq.mp hname).symm
    next => cases h
  · rintro rfl
    cases policy <;> rfl

/-! ## What a plugin returns -/

/-- Whether what a plugin returns can be merged into the facts: the policy that it asks for is one,
and what it has for the instance is a mapping. Either may be missing or null. -/
structure Adoptable (result : Fields) : Prop where
  policy : ∀ d ∈ result.get? listMergeKey, d = .null ∨ ∃ policy : ListMerge, d = .str policy.name
  update : ∀ d ∈ result.get? instanceKey, d = .null ∨ ∃ update, d = .map update

namespace Interpreter

variable {label : String} {result : Fields}

theorem policyOf_eq_ok {policy : ListMerge} (h : policyOf label result = .ok policy) :
    ∀ d ∈ result.get? listMergeKey, d = .null ∨ ∃ policy : ListMerge, d = .str policy.name := by
  intro d hd
  rw [policyOf, Option.mem_def.mp hd] at h
  cases d with
  | null => exact Or.inl rfl
  | str s =>
    cases hname : ListMerge.ofName s with
    | ok found => exact Or.inr ⟨found, by rw [ofName_eq_ok_iff.mp hname]⟩
    | error why =>
      simp only [hname] at h
      cases h
  | _ => cases h

theorem policyOf_eq_error {e : Error} (h : policyOf label result = .error e) :
    ¬ Adoptable result ∧ ∃ why, e = .execution label why := by
  rw [policyOf] at h
  cases hentry : result.get? listMergeKey with
  | none => rw [hentry] at h; cases h
  | some d =>
    rw [hentry] at h
    cases d with
    | null => cases h
    | str s =>
      cases hname : ListMerge.ofName s with
      | ok found => simp only [hname] at h; cases h
      | error why =>
        simp only [hname] at h
        refine ⟨fun hadoptable => ?_, why, (Except.error.inj h).symm⟩
        rcases hadoptable.policy _ hentry with hd | ⟨policy, hd⟩ <;> cases hd
        cases hname.symm.trans (ofName_eq_ok_iff.mpr rfl)
    | _ =>
      refine ⟨fun hadoptable => ?_, _, (Except.error.inj h).symm⟩
      rcases hadoptable.policy _ hentry with hd | ⟨policy, hd⟩ <;> cases hd

/-- A result is merged into the facts, or it asks for what there is not, and nothing is merged. -/
theorem adopt_cases (label : String) (result : Fields) (s : Session) :
    (Adoptable result ∧ ∃ d after, adopt label (.map result) s = (.ok d, after)) ∨
      ¬ Adoptable result ∧
        ∃ why, adopt label (.map result) s = (.error (.execution label why), s) := by
  unfold adopt
  dsimp only
  rw [bind_apply]
  cases hpolicy : policyOf label result with
  | error e =>
    obtain ⟨hunknown, why, rfl⟩ := policyOf_eq_error hpolicy
    exact Or.inr ⟨hunknown, why, rfl⟩
  | ok policy =>
    have hknown := policyOf_eq_ok hpolicy
    cases hentry : result.get? instanceKey with
    | none => exact Or.inl ⟨⟨hknown, by simp [hentry]⟩, _, _, rfl⟩
    | some d =>
      cases d with
      | null => exact Or.inl ⟨⟨hknown, by simp [hentry]⟩, _, _, rfl⟩
      | map update => exact Or.inl ⟨⟨hknown, by simp [hentry]⟩, _, _, rfl⟩
      | _ =>
        refine Or.inr ⟨fun hadoptable => ?_, _, rfl⟩
        rcases hadoptable.update _ hentry with hd | ⟨update, hd⟩ <;> cases hd

/-! ## Calls -/

variable (i : Interpreter) (t : Definition) (p : Plugin) {args : Document} {s after : Session}
  {e : Error}

/-- When its plugin has ended, a call fails only with the facts that the plugin left, or with those
of before. -/
theorem settle_eq_error {limit : Option Nat} {ending : Plugin.Ending}
    (h : settle t p limit ending s = (.error e, after)) :
    after = s ∨
      ∃ result facts, ending = .finished (.ok (.map result)) facts ∧ ¬ Adoptable result ∧
        (∃ why, e = .execution t.label why) ∧ after = s.changed fun c => { c with facts } := by
  cases ending with
  | crashed => cases h; exact Or.inl rfl
  | endless => cases limit <;> cases h <;> exact Or.inl rfl
  | finished outcome facts =>
    cases outcome with
    | error why => cases h; exact Or.inl rfl
    | ok result =>
      -- From here on the facts are the copy, and an error of the result comes too late.
      change adopt t.label result (s.changed fun c => { c with facts }) = _ at h
      cases result with
      | map result =>
        rcases adopt_cases t.label result (s.changed fun c => { c with facts }) with
          ⟨-, d, last, hadopted⟩ | ⟨hnot, why, hfailed⟩
        · cases hadopted.symm.trans h
        · cases hfailed.symm.trans h
          exact Or.inr ⟨result, facts, rfl, hnot, ⟨why, rfl⟩, rfl⟩
      | _ => cases h

/-- **A call that fails leaves the context as it was**, unless its plugin succeeds with a result that
cannot be merged. Then the facts are the copy that the plugin worked on, and nothing of the result is
merged into it. -/
theorem failed_call_context (h : i.callPlugin t p args s = (.error e, after)) :
    after.context = s.context ∨
      ∃ ready result facts, argsOf t.label p args s = (.ok ready, s) ∧
        p.run (callOf t s.context ready) = .finished (.ok (.map result)) facts ∧
        ¬ Adoptable result ∧ (∃ why, e = .execution t.label why) ∧
        after.context = { s.context with facts } := by
  -- Everything up to the call itself only reads, so an error there leaves the session alone.
  rw [callPlugin] at h
  rcases bind_eq_error h with hargs | ⟨ready, mid, hargs, hrest⟩
  · rw [(readsOnly_argsOf _ _ _).eq hargs]
    exact Or.inl rfl
  obtain rfl := (readsOnly_argsOf _ _ _).eq hargs
  rcases bind_eq_error hrest with hlimit | ⟨limit, last, hlimit, hcall⟩
  · rw [(readsOnly_limitOf i t).eq hlimit]
    exact Or.inl rfl
  obtain rfl := (readsOnly_limitOf i t).eq hlimit
  rcases settle_eq_error t p hcall with rfl | ⟨result, facts, hrun, hnot, hwhy, rfl⟩
  · exact Or.inl rfl
  · exact Or.inr ⟨ready, result, facts, hargs, hrun, hnot, hwhy, rfl⟩

end Interpreter

/-- A plugin that changes its copy of the facts and asks for a policy that there is not. -/
private def careless : Plugin where
  name := "careless"
  args := .mapping
  run _ := .finished (.ok (.map [(listMergeKey, .str "bogus")])) (.map [("touched", .bool true)])

private def untouched : Session where
  context := { facts := .map [("a", .int 1)] }

private def alone : Interpreter := ⟨⟨[careless]⟩, fun _ => default, none, none, 2⟩

private def plain : Definition where
  payload := .plugin careless.name (.map [])

/-- The call fails, and the facts are the copy all the same. -/
theorem failed_call_keeps_copy : ∃ e,
    (alone.callPlugin plain careless (.map []) untouched).1 = .error e ∧
      untouched.context.facts = .map [("a", .int 1)] ∧
      (alone.callPlugin plain careless (.map []) untouched).2.context.facts =
        .map [("touched", .bool true)] :=
  ⟨_, rfl, rfl, rfl⟩

theorem failed_call_context_careless : ∃ e after,
    alone.callPlugin plain careless (.map []) untouched = (.error e, after) ∧
      (after.context = untouched.context ∨
        ∃ ready result facts,
          Interpreter.argsOf plain.label careless (.map []) untouched = (.ok ready, untouched) ∧
          careless.run (Interpreter.callOf plain untouched.context ready) =
            .finished (.ok (.map result)) facts ∧
          ¬ Adoptable result ∧ (∃ why, e = .execution plain.label why) ∧
          after.context = { untouched.context with facts }) :=
  ⟨_, _, rfl, Interpreter.failed_call_context alone plain careless rfl⟩

end SoftwareCensus.Tasks
