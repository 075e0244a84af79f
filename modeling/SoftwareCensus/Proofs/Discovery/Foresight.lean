import SoftwareCensus.Proofs.Discovery.Sweep
import SoftwareCensus.Proofs.Tasks.StaticCheck

/-!
# Foresight

What a check accepts can be run against any inventory. The patterns of signatures that make sense
compile, so nothing but tasks can fail. All tasks are those that the check saw, so the plugins they
name are there, and arguments and names are refused only where a template stands in for them.

An error can come up in three places: a run ends with it, notes it when a task fails, or lists it
with an instance that failed. All three are followed through the run by one judgement on steps.

## Main results

* `Engine.sound_runSignatures` : the errors of a run over signatures that were checked are foreseen
* `Engine.check_sound` : so are those of a whole run, each where its template is
-/

namespace SoftwareCensus

/-! ## Signatures that are read -/

/-- The tasks of a signature that is read are ordered. -/
theorem Signature.ordered_of_decode? {source : Source} {s : Signature} (h : decode? source = some s) :
    Document.AllOrdered s.customTasks := by
  simp only [decode?, bind, Option.bind_eq_some_iff] at h
  obtain ⟨r, -, _, -, _, -, _, -, _, -, _, -, _, -, _, -, tasks, htasks, _, -, hs⟩ := h
  cases hs
  rw [Source.Record.withDefault] at htasks
  split at htasks
  -- The tasks are a list of documents, or there are none.
  next =>
    refine Document.allOrdered_iff.mpr fun d hd => ?_
    obtain ⟨item, hitem⟩ := Source.exists_of_mem_listOf? htasks hd
    exact Source.ordered_of_toDocument? item hitem
  next =>
    cases htasks
    trivial

/-- So are the tasks of all signatures of a catalog that is read. -/
theorem Catalog.ordered_of_decode? {source : Source} {c : Catalog} (h : decode? source = some c) :
    ∀ s ∈ c.signatures, Document.AllOrdered s.customTasks := by
  intro s hs
  -- Every signature of the catalog was read from an item of a list.
  suffices hread : ∃ item : Source, Signature.decode? item = some s from
    hread.elim fun _ => Signature.ordered_of_decode?
  rw [decode?] at h
  obtain ⟨settled, -, h⟩ := Option.bind_eq_some_iff.mp h
  -- A catalog is a list of signatures, or has that list as its field.
  split at h
  next signatures hsignatures =>
    cases h
    exact Source.exists_of_mem_listOf? hsignatures hs
  next =>
    obtain ⟨entries, -, h⟩ := Option.bind_eq_some_iff.mp h
    obtain ⟨r, -, h⟩ := Option.bind_eq_some_iff.mp h
    obtain ⟨signatures, hsignatures, hc⟩ := Option.bind_eq_some_iff.mp h
    cases hc
    obtain ⟨list, -, hlist⟩ := Option.bind_eq_some_iff.mp hsignatures
    exact Source.exists_of_mem_listOf? hlist hs

/-! ## Signatures that make sense -/

section Signature

variable {s : Signature} (h : s.validate = .ok ())
include h

/-- The patterns of a valid signature compile, so there is a detector. -/
theorem exists_detector : ∃ d, Detector.ofSignature s = .ok d := by
  obtain ⟨⟨m, hm⟩, -⟩ := Signature.exists_matchers h
  rw [Detector.ofSignature, hm]
  exact ⟨_, rfl⟩

/-- What is found for a valid signature can be enriched. -/
theorem exists_enrich (f : Forest) (inventory : Inventory) (seeds : List Seed) :
    ∃ instances, enrich f inventory s seeds = .ok instances := by
  obtain ⟨-, m?, hm⟩ := Signature.exists_matchers h
  rw [enrich, matchingPackages, hm]
  -- With a pattern for packages or without one.
  cases m? <;> exact ⟨_, rfl⟩

end Signature

namespace Discovery.Engine

open Tasks

/-! ## Errors of steps -/

/-- An error of tasks with a property. -/
inductive OfTask (P : Tasks.Error → Prop) : Error → Prop where
  | task {place : String} {why : Tasks.Error} (h : P why) : OfTask P (.task place why)

/-- All errors that came up so far have a property. -/
structure Clean (P : Tasks.Error → Prop) (st : State) : Prop where
  noted : ∀ why, .task (.failed why) ∈ st.journal → P why
  judged : ∀ v ∈ st.verdicts, ∀ place why, v.fate = .failed place why → P why

namespace Clean

variable {P : Tasks.Error → Prop} {st : State}

/-- Events that add no error leave a state clean. -/
theorem journal_append (h : Clean P st) {events : List Event}
    (hevents : ∀ why, .task (.failed why) ∈ events → P why) :
    Clean P { st with journal := events ++ st.journal } where
  noted why hwhy := by
    -- A failure is one of the new events, or was noted before.
    rcases List.mem_append.mp hwhy with hwhy | hwhy
    · exact hevents why hwhy
    · exact h.noted why hwhy
  judged := h.judged

/-- Events that are not about tasks add no error. -/
theorem journal_cons (h : Clean P st) (event : Event) (hevent : ∀ noted, event ≠ .task noted) :
    Clean P { st with journal := event :: st.journal } :=
  have hevents : ∀ why, .task (.failed why) ∈ [event] → P why :=
    fun _ hwhy => absurd (List.mem_singleton.mp hwhy).symm (hevent _)
  h.journal_append hevents

/-- A verdict leaves a state clean if the error of its fate has the property. -/
theorem verdicts_cons (h : Clean P st) {v : Verdict}
    (hv : ∀ place why, v.fate = .failed place why → P why) :
    Clean P { st with verdicts := v :: st.verdicts } where
  noted := h.noted
  judged := List.forall_mem_cons.mpr ⟨hv, h.judged⟩

end Clean

/-- The errors that come up in a step have a property, and the step ends with errors of tasks only.
-/
def Sound {α : Type} (P : Tasks.Error → Prop) (act : Step α) : Prop :=
  ∀ st, Clean P st → Clean P (act st).2 ∧ ∀ err, (act st).1 = .error err → OfTask P err

namespace Sound

variable {α β : Type} {P : Tasks.Error → Prop}

/-- A step that does nothing is sound. -/
theorem pure (a : α) : Sound P (Pure.pure a : Step α) :=
  fun _ h => ⟨h, nofun⟩

theorem get : Sound P (MonadState.get : Step State) :=
  fun _ h => ⟨h, nofun⟩

theorem changeContext (f : Context → Context) : Sound P (changeContext f) :=
  fun _ h => ⟨⟨h.noted, h.judged⟩, nofun⟩

/-- Steps that are sound are sound one after the other. -/
theorem bind {first : Step α} {next : α → Step β} (hfirst : Sound P first)
    (hnext : ∀ a, Sound P (next a)) : Sound P (first >>= next) := by
  intro st hst
  have hmid := hfirst st hst
  rw [bind_apply]
  generalize first st = result at hmid
  obtain ⟨outcome, mid⟩ := result
  -- What follows begins in a clean state, or the error of the first step ends both.
  cases outcome with
  | ok a => exact hnext a mid hmid.1
  | error err =>
    obtain ⟨hclean, herrors⟩ := hmid
    refine ⟨hclean, fun err' h => ?_⟩
    cases h
    exact herrors err rfl

end Sound

/-! ## Runs of what was checked -/

/-- The lists of tasks that a run works with. -/
def taskLists (e : Engine) (c : Catalog) : List (List Document) :=
  e.options.preTasks :: e.options.postTasks :: c.signatures.map (·.customTasks)

/-- What is known of lists of tasks that were checked and include nothing. -/
structure Vetted (e : Engine) (lists : List (List Document)) : Prop where
  accepted : ∀ tasks ∈ lists, Accepted e.registry tasks
  ordered : ∀ tasks ∈ lists, Document.AllOrdered tasks
  closed : ∀ tasks ∈ lists, ∀ t file, Within t tasks → t.payload ≠ .inclusion file
  leavesChecks : ∀ p ∈ e.registry.plugins, p.LeavesChecks

/-- Tasks fail for an instance with the error that they end with. -/
theorem failed_of_fateOf {e : Engine} {s : Signature} {place place' : String}
    {outcome : Except Tasks.Error Document} {why : Tasks.Error}
    (h : e.fateOf s place outcome = .ok (.failed place' why)) : outcome = .error why := by
  cases outcome with
  -- A document is kept or withdrawn, and neither is a failure.
  | ok d =>
    rw [fateOf] at h
    cases hend : finalize s (some e.time) d <;>
      · rw [hend] at h
        cases h
  | error why' =>
    simp only [fateOf] at h
    -- In a lenient run the error becomes the fate; in a strict one it is carried on.
    split at h
    · cases h
      rfl
    · cases h

/-- An error that ends a run at an instance is the one its tasks ended with. -/
theorem fateOf_eq_error {e : Engine} {s : Signature} {place : String}
    {outcome : Except Tasks.Error Document} {err : Error} (h : e.fateOf s place outcome = .error err) :
    ∃ why, outcome = .error why ∧ err = .task place why := by
  cases outcome with
  | ok d =>
    rw [fateOf] at h
    cases hend : finalize s (some e.time) d <;>
      · rw [hend] at h
        cases h
  -- The strict case is the one that ends the run.
  | error why =>
    simp only [fateOf] at h
    split at h
    · cases h
    · cases h
      exact ⟨why, rfl, rfl⟩

section Steps

variable {e : Engine} {lists : List (List Document)} (hvetted : Vetted e lists)
include hvetted

/-- A run of vetted tasks meets only errors that were foreseen. -/
theorem Vetted.relates_run {tasks : List Document} (h : tasks ∈ lists) :
    (tolerating (Foreseen e.registry lists) (fun _ => .inl) []).Relates False
      (e.interpreter.run tasks) (e.interpreter.run tasks) :=
  relates_accepted (i := e.interpreter) hvetted.leavesChecks h (hvetted.closed tasks h)
    e.levels (hvetted.accepted tasks h) (hvetted.ordered tasks h) fun _ => id

variable (hpre : e.options.preTasks ∈ lists) (hpost : e.options.postTasks ∈ lists)
include hpre hpost

/-- The tasks of an instance fail and note failures as it was foreseen. -/
theorem foreseen_instanceFacts {s : Signature} (hs : s.customTasks ∈ lists) (i : Instance)
    (c : Context) :
    (∀ why, (e.instanceFacts s i { context := c }).1 = .error why → Foreseen e.registry lists why) ∧
      ∀ why, .failed why ∈ (e.instanceFacts s i { context := c }).2.journal →
        Foreseen e.registry lists why := by
  have hfacts : (tolerating (Foreseen e.registry lists) (fun _ => .inl) []).Relates False
      (e.instanceFacts s i) (e.instanceFacts s i) := by
    -- The facts are set up, and then come the tasks before, of and after the signature.
    apply (Pairing.Relates.change _).bind
    intro _
    apply (hvetted.relates_run hpre).bind
    intro _
    apply (hvetted.relates_run hs).bind
    intro _
    apply (hvetted.relates_run hpost).bind
    intro _
    exact .bindContext fun _ => .pure _
  -- Nothing is noted before the tasks begin, so every failure that is noted is theirs.
  have hends := hfacts { context := c } { context := c } ⟨rfl, fun _ h => .inl h⟩
  generalize e.instanceFacts s i { context := c } = result at hends
  obtain ⟨outcome, session⟩ := result
  obtain ⟨houtcome, -, hjournal⟩ := hends.resolve_left fun hcut => hcut.1
  refine ⟨fun why h => ?_, fun why h => (hjournal why h).resolve_left List.not_mem_nil⟩
  obtain rfl : outcome = .error why := h
  cases houtcome with
  | error h => exact h.2

/-- Judging an instance is sound. -/
theorem sound_judge {s : Signature} (hs : s.customTasks ∈ lists) (i : Instance) :
    Sound (Foreseen e.registry lists) (e.judge s i) := by
  intro st hst
  obtain ⟨houtcome, hjournal⟩ := foreseen_instanceFacts hvetted hpre hpost hs i st.context
  unfold judge
  generalize e.instanceFacts s i { context := st.context } = result at houtcome hjournal
  obtain ⟨outcome, session⟩ := result
  -- The events of the tasks are those of the session, wrapped.
  have hnoted : ∀ why, Event.task (.failed why) ∈ session.journal.map Event.task →
      Foreseen e.registry lists why := by
    intro why h
    obtain ⟨event, hevent, heq⟩ := List.mem_map.mp h
    cases heq
    exact hjournal why hevent
  have hmid := hst.journal_append hnoted
  dsimp only
  -- An error of the tasks ends the run, or becomes the fate of the instance.
  cases hfate : e.fateOf s (placeOf s i.seed) outcome with
  | error err =>
    obtain ⟨why, rfl, rfl⟩ := fateOf_eq_error hfate
    have hstopped := hmid.journal_cons (.stopped i.seed (.task (placeOf s i.seed) why)) nofun
    refine ⟨⟨hstopped.noted, hstopped.judged⟩, fun err h => ?_⟩
    cases h
    exact .task (houtcome why rfl)
  | ok fate =>
    have hfailed : ∀ place why, fate = .failed place why → Foreseen e.registry lists why :=
      fun place why h => houtcome why (failed_of_fateOf (h ▸ hfate))
    have hverdict : Clean (Foreseen e.registry lists) _ :=
      hmid.verdicts_cons (v := ⟨i.seed, fate⟩) hfailed
    have hjudged := hverdict.journal_cons (.judged s.name ⟨i.seed, fate⟩) nofun
    exact ⟨⟨hjudged.noted, hjudged.judged⟩, nofun⟩

/-- Judging all instances of a signature is sound, one after another. -/
theorem sound_judgeAll {s : Signature} (hs : s.customTasks ∈ lists) (instances : List Instance) :
    Sound (Foreseen e.registry lists) (e.judgeAll s instances) := by
  induction instances with
  | nil => exact .pure ()
  | cons i rest ih => exact (sound_judge hvetted hpre hpost hs i).bind fun _ => ih

end Steps

/-- Detection runs no tasks, so it adds no error. -/
theorem sound_detectSeeds {P : Tasks.Error → Prop} (scene : Scene) {s : Signature}
    (hvalid : s.validate = .ok ()) : Sound P (detectSeeds scene s) := by
  obtain ⟨d, hd⟩ := exists_detector hvalid
  rw [detectSeeds, hd]
  apply Sound.get.bind
  intro found st hst
  -- What is noted of a signature is what it detects.
  have hdetected : ∀ why, Event.task (.failed why) ∈
      ((d.detect scene.forest found.pool).1.map (.detected s.name)).reverse → P why := by
    intro why h
    obtain ⟨seed, -, heq⟩ := List.mem_map.mp (List.mem_reverse.mp h)
    cases heq
  have hafter := hst.journal_append hdetected
  exact ⟨⟨hafter.noted, hafter.judged⟩, nofun⟩

section Steps

variable {e : Engine} {lists : List (List Document)} (hvetted : Vetted e lists)
  (hpre : e.options.preTasks ∈ lists) (hpost : e.options.postTasks ∈ lists)
include hvetted hpre hpost

/-- A signature that is valid, and whose tasks are vetted, is run soundly. -/
theorem sound_runSignature (scene : Scene) {s : Signature} (hs : s.customTasks ∈ lists)
    (hvalid : s.validate = .ok ()) : Sound (Foreseen e.registry lists) (e.runSignature scene s) := by
  unfold runSignature
  apply (sound_detectSeeds scene hvalid).bind
  intro seeds
  split
  -- Nothing was found, and nothing is judged.
  case isTrue => exact .pure ()
  case isFalse =>
    obtain ⟨instances, hinstances⟩ := exists_enrich hvalid scene.forest scene.inventory seeds
    rw [hinstances]
    apply Sound.get.bind
    intro st
    -- The bindings of the signature surround its judgements.
    apply (Sound.changeContext _).bind
    intro _
    exact (sound_judgeAll hvetted hpre hpost hs instances).bind fun _ => .changeContext _

/-- **The errors of a run over signatures that were checked are foreseen.** -/
theorem sound_runSignatures (scene : Scene) {signatures : List Signature}
    (h : ∀ s ∈ signatures, s.customTasks ∈ lists ∧ s.validate = .ok ()) :
    Sound (Foreseen e.registry lists) (e.runSignatures scene signatures) := by
  -- By induction on the signatures, each in the state the one before it left.
  induction signatures with
  | nil => exact .pure ()
  | cons s rest ih =>
    obtain ⟨⟨hs, hvalid⟩, hrest⟩ := List.forall_mem_cons.mp h
    exact (sound_runSignature hvetted hpre hpost scene hs hvalid).bind fun _ => ih hrest

end Steps

/-! ## Whole runs -/

/-- An error of tasks comes up in a run: the run ends with it, notes it when a task fails, or lists
it with an instance that failed. -/
inductive Meets (e : Engine) (inventory : Inventory) (c : Catalog) (id : RunId) (why : Tasks.Error) :
    Prop where
  | ended {place : String} (h : e.run inventory c id = .error (.task place why))
  | noted (h : .task (.failed why) ∈ (e.runTraced inventory c id).2)
  | listed {report : Report} {v : Verdict} {place : String} (h : e.run inventory c id = .ok report)
      (mem : v ∈ report.verdicts) (fate : v.fate = .failed place why)

section Runs

variable {e : Engine} {c : Catalog}

/-- The check looks at every list of tasks that a run works with. -/
theorem accepted_taskLists (h : e.check c = .ok ()) :
    ∀ tasks ∈ e.taskLists c, Accepted e.registry tasks := by
  obtain ⟨hpre, hpost, hcustom⟩ := check_eq_ok_iff.mp h
  have hsignatures : ∀ tasks ∈ c.signatures.map (·.customTasks), Accepted e.registry tasks := by
    intro tasks htasks
    obtain ⟨s, hs, rfl⟩ := List.mem_map.mp htasks
    exact ⟨_, hcustom s hs⟩
  exact List.forall_mem_cons.mpr ⟨⟨_, hpre⟩, List.forall_mem_cons.mpr ⟨⟨_, hpost⟩, hsignatures⟩⟩

section Ends

variable {inventory : Inventory} {id : RunId} (hcheck : e.check c = .ok ())
include hcheck

/-- An accepted run that fails does so in its signatures. -/
theorem runSignatures_of_error {err : Error} (h : e.run inventory c id = .error err) :
    (e.runSignatures (sceneOf inventory) c.signatures (e.start (sceneOf inventory))).1 =
      .error err := by
  rw [run, runTraced, hcheck] at h
  dsimp only at h
  generalize e.runSignatures _ _ _ = result at h ⊢
  obtain ⟨outcome, st⟩ := result
  cases outcome with
  | ok _ => cases h
  | error err' =>
    cases h
    rfl

/-- A failure that a run notes is one that its signatures noted. -/
theorem mem_journal_of_failed {why : Tasks.Error}
    (h : .task (.failed why) ∈ (e.runTraced inventory c id).2) :
    .task (.failed why) ∈
      (e.runSignatures (sceneOf inventory) c.signatures (e.start (sceneOf inventory))).2.journal := by
  rw [runTraced, hcheck] at h
  dsimp only at h
  generalize e.runSignatures _ _ _ = result at h ⊢
  obtain ⟨outcome, st⟩ := result
  -- A run adds one event before those of its signatures, and one after them if it ends well.
  cases outcome <;> simpa using h

end Ends

/-- A run of what was checked ends in errors of tasks only, and meets none that was not foreseen. -/
theorem run_foreseen (hvalid : c.validate = .ok ()) (hcheck : e.check c = .ok ())
    (hvetted : Vetted e (e.taskLists c)) (inventory : Inventory) (id : RunId) :
    (∀ name err, e.run inventory c id ≠ .error (.signature name err)) ∧
      ∀ why, e.Meets inventory c id why → Foreseen e.registry (e.taskLists c) why := by
  have hpre : e.options.preTasks ∈ e.taskLists c := List.mem_cons_self
  have hpost : e.options.postTasks ∈ e.taskLists c := List.mem_cons_of_mem _ List.mem_cons_self
  have hsignatures : ∀ s ∈ c.signatures, s.customTasks ∈ e.taskLists c ∧ s.validate = .ok () := by
    intro s hs
    have hcustom : s.customTasks ∈ c.signatures.map (·.customTasks) := List.mem_map_of_mem hs
    exact ⟨List.mem_cons_of_mem _ (List.mem_cons_of_mem _ hcustom), Catalog.validate_of_mem hvalid hs⟩
  have hstart : Clean (Foreseen e.registry (e.taskLists c)) (e.start (sceneOf inventory)) :=
    ⟨nofun, nofun⟩
  obtain ⟨hclean, herrors⟩ :=
    sound_runSignatures hvetted hpre hpost (sceneOf inventory) hsignatures _ hstart
  refine ⟨fun name err h => ?_, fun why h => ?_⟩
  -- The error of a signature is no error of tasks.
  · cases herrors _ (runSignatures_of_error hcheck h)
  · cases h with
    -- The run ended with it, noted it, or lists it.
    | ended h =>
      cases herrors _ (runSignatures_of_error hcheck h) with
      | task hforeseen => exact hforeseen
    | noted h => exact hclean.noted why (mem_journal_of_failed hcheck h)
    | listed h hv hfate =>
      -- A run that comes to its end reports the verdicts of its last state.
      obtain ⟨-, st, hst, rfl⟩ := run_eq_ok_iff.mp h
      rw [hst] at hclean
      exact hclean.judged _ (List.mem_reverse.mp hv) _ why hfate

/-- **The check is sound.** Let a catalog be valid and accepted, let its lists of tasks include
nothing and be ordered, as those are that are read (`Catalog.ordered_of_decode?`), and let plugins
leave the refusing of arguments to the checks. Then no run ends in an error of a signature or meets
a plugin that is not there. Arguments and names to register are refused only if a task has a
template in their place, and only at such a task, whatever it runs on. -/
theorem check_sound (hvalid : c.validate = .ok ()) (hcheck : e.check c = .ok ())
    (hordered : ∀ tasks ∈ e.taskLists c, Document.AllOrdered tasks)
    (hclosed : ∀ tasks ∈ e.taskLists c, ∀ t file, Within t tasks → t.payload ≠ .inclusion file)
    (hplugins : ∀ p ∈ e.registry.plugins, p.LeavesChecks) (inventory : Inventory) (id : RunId) :
    (∀ name err, e.run inventory c id ≠ .error (.signature name err)) ∧
      (∀ name, ¬ e.Meets inventory c id (.pluginNotFound name)) ∧
      (∀ plugin flaw, e.Meets inventory c id (.invalidArgs plugin flaw) →
        ∃ tasks ∈ e.taskLists c, ∃ t name args, Within t tasks ∧ t.payload = .plugin name args ∧
          args.hasTemplate = true ∧ DueTo e.registry t (.invalidArgs plugin flaw)) ∧
      (∀ name, e.Meets inventory c id (.invalidRegister name) →
        ∃ tasks ∈ e.taskLists c, ∃ t raw, Within t tasks ∧ t.register = some raw ∧
          Template.isTemplate raw = true ∧ DueTo e.registry t (.invalidRegister name)) ∧
      ∀ tasks ∈ e.taskLists c, ∀ t, Within t tasks → t.payload.isPlugin = true →
        ∀ inner s why, (e.interpreter.runTask inner t s).1 = .error why → why.isStatic = true →
          DueTo e.registry t why := by
  have haccepted := accepted_taskLists hcheck
  obtain ⟨hsignature, hforeseen⟩ :=
    run_foreseen hvalid hcheck ⟨haccepted, hordered, hclosed, hplugins⟩ inventory id
  -- An error that can be told from a task list, and is foreseen, is due to a task.
  have hdue : ∀ why, e.Meets inventory c id why → why.isStatic = true →
      ∃ tasks ∈ e.taskLists c, ∃ t, Within t tasks ∧ DueTo e.registry t why := by
    intro why hmeets hstatic
    refine (hforeseen why hmeets).resolve_left fun hdynamic => ?_
    exact Bool.false_ne_true (hdynamic.symm.trans hstatic)
  refine ⟨hsignature, ?_, ?_, ?_, ?_⟩
  -- No task is to blame for a missing plugin: the check has looked all of them up.
  · intro name hmeets
    obtain ⟨_, _, _, _, hnone⟩ := hdue _ hmeets rfl
    cases hnone
  · intro plugin flaw hmeets
    obtain ⟨tasks, htasks, t, ht, hdueTo⟩ := hdue _ hmeets rfl
    cases hdueTo with
    | args hpayload htemplate hlookup hrefused =>
      exact ⟨tasks, htasks, t, _, _, ht, hpayload, htemplate,
        .args hpayload htemplate hlookup hrefused⟩
  · intro name hmeets
    obtain ⟨tasks, htasks, t, ht, hdueTo⟩ := hdue _ hmeets rfl
    cases hdueTo with
    | register hregister htemplate hrefused =>
      exact ⟨tasks, htasks, t, _, ht, hregister, htemplate,
        .register hregister htemplate hrefused⟩
  -- What is said of a single task holds in every session, so it is no matter of the run.
  · intro tasks htasks t ht hplugin inner s why h hstatic
    obtain ⟨hchecked, hargs⟩ := ht.checked (haccepted tasks htasks) (hordered tasks htasks)
    have herror := error_of_checked (i := e.interpreter) hplugins hchecked hplugin hargs h
    exact herror.resolve_left fun hdynamic => Bool.false_ne_true (hdynamic.symm.trans hstatic)

/-- A signature with a task whose arguments turn out to be a number. -/
private def late : Signature :=
  { name := "late", cmdRegexp := ".", vars := [("port", .int 80)],
    customTasks := [.ofFields [("set_instance_fact", .str "\x7b\x7b port \x7d\x7d")]] }

private def laptop : Inventory :=
  { processes := [{ pid := ⟨"1"⟩, cmdline := "init" }] }

private def stock : Engine := ⟨.builtin, default, {}, "now", 1⟩

theorem check_sound_late :
    ∃ place plugin flaw, stock.run laptop ⟨[late]⟩ ⟨"first"⟩ =
        .error (.task place (.invalidArgs plugin flaw)) ∧
      ∃ tasks ∈ stock.taskLists ⟨[late]⟩, ∃ t name args,
        Within t tasks ∧ t.payload = .plugin name args ∧ args.hasTemplate = true := by
  have hlists : ∀ tasks ∈ stock.taskLists ⟨[late]⟩, tasks = [] ∨ tasks = late.customTasks := by
    intro tasks h
    simpa [taskLists, stock] using h
  have hordered : ∀ tasks ∈ stock.taskLists ⟨[late]⟩, Document.AllOrdered tasks := by
    intro tasks h
    rcases hlists tasks h with rfl | rfl
    · trivial
    · exact ⟨⟨List.pairwise_singleton .., trivial, trivial⟩, trivial⟩
  -- Its task calls a plugin, so it neither includes a file nor has a list of its own.
  have hplugin : ∀ tasks ∈ stock.taskLists ⟨[late]⟩, ∀ t, Within t tasks →
      t.payload.isPlugin = true := by
    have hparse : ∀ d ∈ late.customTasks, ∀ k t, Definition.parse k d = .ok t →
        t.payload.isPlugin = true := by
      intro d hd k t h
      obtain rfl := List.mem_singleton.mp hd
      cases h
      rfl
    intro tasks h t ht
    rcases hlists tasks h with rfl | rfl
    · cases ht with
      | here hd | inside hd => cases hd
    · cases ht with
      | here hd hread => exact hparse _ (List.mem_of_getElem? hd) _ _ hread
      | inside hd hread hblock =>
        have hcalls := hparse _ (List.mem_of_getElem? hd) _ _ hread
        rw [hblock] at hcalls
        cases hcalls
  -- Evaluating the run shows that it meets the error.
  have hrun : (match stock.run laptop ⟨[late]⟩ ⟨"first"⟩ with
    | .error (.task _ (.invalidArgs _ _)) => true
    | _ => false) = true := by decide +kernel
  have hclosed : ∀ tasks ∈ stock.taskLists ⟨[late]⟩, ∀ t file, Within t tasks →
      t.payload ≠ .inclusion file := by
    intro tasks htasks t file ht h
    have hcalls := hplugin tasks htasks t ht
    rw [h] at hcalls
    cases hcalls
  obtain ⟨-, -, hargs, -⟩ := check_sound (e := stock) (c := ⟨[late]⟩) (by decide +kernel)
    (by decide +kernel) hordered hclosed Registry.builtin_leavesChecks laptop ⟨"first"⟩
  cases hends : stock.run laptop ⟨[late]⟩ ⟨"first"⟩ with
  | ok report =>
    rw [hends] at hrun
    cases hrun
  | error err =>
    rw [hends] at hrun
    split at hrun
    next place plugin flaw heq =>
      cases heq
      obtain ⟨tasks, htasks, t, name, args, ht, hpayload, htemplate, -⟩ := hargs _ _ (.ended hends)
      exact ⟨place, plugin, flaw, rfl, tasks, htasks, t, name, args, ht, hpayload, htemplate⟩
    next => cases hrun

end Runs

end Discovery.Engine

end SoftwareCensus
