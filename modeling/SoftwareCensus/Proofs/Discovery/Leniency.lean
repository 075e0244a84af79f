import SoftwareCensus.Proofs.Discovery.Sweep

/-!
# Lenient and Strict Runs

A lenient engine goes on without an instance whose tasks fail, a strict one ends its run there. They
consult their setting only once the tasks of an instance have failed, so as long as nothing fails they
take the same steps through the same states. A verdict stays in the state once it is there, which is
why a lenient run without failures had none on its way either.

## Main results

* `Engine.parallel_judge` : strict and lenient judgements agree unless the instance fails
* `Engine.run_strict_iff_lenient` : a strict run comes to a report exactly when the lenient run comes to
  one without failures, and then the reports agree
-/

namespace SoftwareCensus.Discovery

namespace Engine

/-- How many instances failed so far. -/
def State.failureCount (st : State) : Nat := (st.verdicts.filterMap Verdict.failureEntries?).length

/-- The engine that ends its run at an instance whose tasks fail. -/
def strict (e : Engine) : Engine := { e with options := { e.options with continueOnError := false } }

/-- The engine that goes on without an instance whose tasks fail. -/
def lenient (e : Engine) : Engine := { e with options := { e.options with continueOnError := true } }

/-! ## Steps side by side -/

/-- A strict and a lenient step: the strict one comes to its end exactly when the lenient one does
without adding a failure, with the same result and in the same state. -/
structure Parallel {α : Type} (strict lenient : Step α) : Prop where
  grows : ∀ {st after : State} {a : α}, lenient st = (.ok a, after) →
    st.failureCount ≤ after.failureCount
  agree : ∀ {st after : State} {a : α}, strict st = (.ok a, after) ↔
    lenient st = (.ok a, after) ∧ after.failureCount = st.failureCount

namespace Parallel

variable {α β : Type}

/-- A step that adds no failure is parallel to itself. -/
theorem refl {step : Step α}
    (h : ∀ {st after : State} {a : α}, step st = (.ok a, after) →
      after.failureCount = st.failureCount) : Parallel step step where
  grows hstep := (h hstep).ge
  agree := ⟨fun hstep => ⟨hstep, h hstep⟩, And.left⟩

/-- Steps one after another. Failures only become more, so if the second step ends with as many as
the first began with, then neither added one. -/
theorem bind {first first' : Step α} {next next' : α → Step β} (hfirst : Parallel first first')
    (hnext : ∀ a, Parallel (next a) (next' a)) : Parallel (first >>= next) (first' >>= next') where
  grows h := by
    obtain ⟨a, mid, hmid, hafter⟩ := bind_eq_ok h
    exact (hfirst.grows hmid).trans ((hnext a).grows hafter)
  agree := by
    intro st after b
    -- Neither step adds a failure, whichever side it is looked at from.
    constructor
    · intro h
      obtain ⟨a, mid, hmid, hafter⟩ := bind_eq_ok h
      obtain ⟨hmid', hsame⟩ := hfirst.agree.mp hmid
      obtain ⟨hafter', hsame'⟩ := (hnext a).agree.mp hafter
      refine ⟨?_, hsame'.trans hsame⟩
      rw [bind_apply, hmid']
      exact hafter'
    · rintro ⟨h, hcount⟩
      obtain ⟨a, mid, hmid, hafter⟩ := bind_eq_ok h
      have hearly := hfirst.grows hmid
      have hlate := (hnext a).grows hafter
      rw [bind_apply, hfirst.agree.mpr ⟨hmid, by omega⟩]
      exact (hnext a).agree.mpr ⟨hafter, by omega⟩

end Parallel

/-! ## The steps of a run -/

variable (e : Engine) (scene : Scene) (s : Signature)

/-- A step that does nothing adds no failure. -/
theorem parallel_pure {α : Type} (a : α) : Parallel (pure a : Step α) (pure a) := by
  refine .refl fun h => ?_
  obtain ⟨-, rfl⟩ := Prod.mk.inj h
  rfl

/-- A change of the context adds no failure. -/
theorem parallel_changeContext (f : Tasks.Context → Tasks.Context) :
    Parallel (changeContext f) (changeContext f) := by
  refine .refl fun h => ?_
  obtain ⟨-, rfl⟩ := Prod.mk.inj h
  rfl

/-- Detection gives no verdicts, so it adds no failure. -/
theorem parallel_detectSeeds : Parallel (detectSeeds scene s) (detectSeeds scene s) := by
  refine .refl fun h => ?_
  obtain ⟨-, -, -, hverdicts, -⟩ := detectSeeds_spec h
  rw [State.failureCount, hverdicts, State.failureCount]

/-- The engines part only at an instance whose tasks failed: the strict one ends there, and the
lenient one ends as well or records a failure. -/
theorem fateOf_cases (place : String) (outcome : Except Tasks.Error Document) :
    (∃ fate, e.strict.fateOf s place outcome = .ok fate ∧
      e.lenient.fateOf s place outcome = .ok fate ∧
        ∀ seed, (⟨seed, fate⟩ : Verdict).failureEntries? = none) ∨
    ∃ err, e.strict.fateOf s place outcome = .error err ∧
      ∀ fate, e.lenient.fateOf s place outcome = .ok fate →
        ∀ seed, (⟨seed, fate⟩ : Verdict).failureEntries?.isSome := by
  cases outcome with
  -- The document is kept or withdrawn, by both engines.
  | ok d =>
    left
    simp only [fateOf, strict, lenient]
    cases finalize s (some e.time) d with
    | keep d => exact ⟨.kept d, rfl, rfl, fun _ => rfl⟩
    | retract => exact ⟨.retracted, rfl, rfl, fun _ => rfl⟩
  | error err =>
    right
    refine ⟨.task place err, rfl, ?_⟩
    intro fate hfate seed
    simp only [fateOf, lenient] at hfate
    -- An error of the configuration ends the lenient run, too.
    cases hconfiguration : err.isConfiguration with
    | true =>
      rw [hconfiguration] at hfate
      cases hfate
    | false =>
      rw [hconfiguration] at hfate
      obtain rfl := Except.ok.inj hfate
      rfl

/-- **Strict and lenient judgements agree unless the instance fails.** -/
theorem parallel_judge (i : Instance) : Parallel (e.strict.judge s i) (e.lenient.judge s i) where
  grows h := by
    obtain ⟨v, -, hverdicts, -⟩ := judge_spec h
    simp only [State.failureCount, hverdicts]
    exact ((List.sublist_cons_self v _).filterMap _).length_le
  agree := by
    intro st after a
    -- The tasks do not see the setting, so they come to the same.
    have hfacts : e.strict.instanceFacts s i = e.lenient.instanceFacts s i := rfl
    unfold judge
    rw [hfacts]
    generalize e.lenient.instanceFacts s i { context := st.context } = result
    obtain ⟨outcome, session⟩ := result
    rcases fateOf_cases e s (placeOf s i.seed) outcome with
      ⟨fate, hstrict, hlenient, hnone⟩ | ⟨err, hstrict, hfailed⟩
    · -- The tasks came to their end, and the engines do the same.
      simp only [hstrict, hlenient]
      refine ⟨fun h => ⟨h, ?_⟩, And.left⟩
      obtain ⟨-, rfl⟩ := Prod.mk.inj h
      simp only [State.failureCount, List.filterMap_cons, hnone]
    · -- The strict engine ends, and the lenient one ends too or has one more failure.
      simp only [hstrict]
      constructor
      · intro h
        cases h
      · rintro ⟨h, hcount⟩
        cases hlenient : e.lenient.fateOf s (placeOf s i.seed) outcome with
        | error err' =>
          simp only [hlenient] at h
          cases h
        | ok fate =>
          simp only [hlenient] at h
          obtain ⟨-, rfl⟩ := Prod.mk.inj h
          obtain ⟨entries, hentries⟩ := Option.isSome_iff_exists.mp (hfailed fate hlenient i.seed)
          simp only [State.failureCount, List.filterMap_cons, hentries, List.length_cons] at hcount
          omega

/-- Judgements one after another agree as long as none fails. -/
theorem parallel_judgeAll (instances : List Instance) :
    Parallel (e.strict.judgeAll s instances) (e.lenient.judgeAll s instances) := by
  induction instances with
  | nil => exact parallel_pure ()
  | cons i rest ih => exact (parallel_judge e s i).bind fun _ => ih

/-- The runs of a signature agree as long as none of its instances fails. -/
theorem parallel_runSignature :
    Parallel (e.strict.runSignature scene s) (e.lenient.runSignature scene s) := by
  unfold runSignature
  refine (parallel_detectSeeds scene s).bind fun seeds => ?_
  -- Nothing is judged where nothing was found.
  split
  · exact parallel_pure ()
  · cases enrich scene.forest scene.inventory s seeds with
    -- A signature that cannot be enriched ends both runs.
    | error err => exact .refl fun h => by cases h
    | ok instances =>
      refine .bind (.refl fun h => ?_) fun found => ?_
      · obtain ⟨-, rfl⟩ := Prod.mk.inj h
        rfl
      refine (parallel_changeContext _).bind fun _ => ?_
      refine (parallel_judgeAll e s instances).bind fun _ => ?_
      exact parallel_changeContext _

/-- The runs of all signatures agree as long as no instance fails. -/
theorem parallel_runSignatures (signatures : List Signature) :
    Parallel (e.strict.runSignatures scene signatures) (e.lenient.runSignatures scene signatures) := by
  induction signatures with
  | nil => exact parallel_pure ()
  | cons s rest ih => exact (parallel_runSignature e scene s).bind fun _ => ih

/-! ## Runs -/

/-- A report has no failures when the state that it is made of has none. -/
theorem failures_reportOf_eq_nil {id : RunId} {st : State} :
    (reportOf id st).failures = [] ↔ st.failureCount = 0 := by
  simp only [Report.failures, reportOf, State.failureCount, List.map_eq_nil_iff,
    List.filterMap_reverse, List.reverse_eq_nil_iff, List.length_eq_zero_iff]

/-- **Leniency makes no difference to a run that needs none.** The strict engine comes to a report
exactly when the lenient one comes to a report without failures, and these reports have the same
verdicts, the same documents and the same unclaimed processes. -/
theorem run_strict_iff_lenient (inventory : Inventory) (c : Catalog) (id id' : RunId) (r : Report) :
    e.strict.run inventory c id = .ok r ↔ r.runId = id ∧
      ∃ r', e.lenient.run inventory c id' = .ok r' ∧ r'.failures = [] ∧
        r'.verdicts = r.verdicts ∧ r'.software = r.software ∧ r'.unclaimed = r.unclaimed := by
  have hparallel := parallel_runSignatures e (sceneOf inventory) c.signatures
  have hstart : (e.lenient.start (sceneOf inventory)).failureCount = 0 := rfl
  have hchecks : e.strict.check c = .ok () ↔ e.lenient.check c = .ok () := by
    rw [check_eq_ok_iff, check_eq_ok_iff]
    exact Iff.rfl
  rw [run_eq_ok_iff, hchecks]
  constructor
  -- The state at the end is the same, and it has no failures as the run began without any.
  · rintro ⟨hcheck, st, hstrict, rfl⟩
    obtain ⟨hlenient, hcount⟩ := hparallel.agree.mp hstrict
    refine ⟨rfl, reportOf id' st, run_eq_ok_iff.mpr ⟨hcheck, st, hlenient, rfl⟩, ?_, rfl, rfl, rfl⟩
    exact failures_reportOf_eq_nil.mpr (hcount.trans hstart)
  -- The other way around, a report without failures is made of a state without any.
  · rintro ⟨rfl, r', hrun, hnone, hverdicts, -, hunclaimed⟩
    obtain ⟨hcheck, st, hlenient, rfl⟩ := run_eq_ok_iff.mp hrun
    have hcount := (failures_reportOf_eq_nil.mp hnone).trans hstart.symm
    refine ⟨hcheck, st, hparallel.agree.mpr ⟨hlenient, hcount⟩, ?_⟩
    obtain ⟨_, verdicts, unclaimed⟩ := r
    obtain rfl : st.verdicts.reverse = verdicts := hverdicts
    obtain rfl : st.pool.pids = unclaimed := hunclaimed
    rfl

end Engine

end SoftwareCensus.Discovery
