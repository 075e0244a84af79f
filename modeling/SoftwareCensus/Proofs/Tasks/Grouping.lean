import SoftwareCensus.Proofs.Tasks.Pairing
import SoftwareCensus.Proofs.Tasks.Reading

/-!
# Groups of Tasks

Tasks can be put into a block, or into a file that a task includes. A group that has no modifier but
a name changes nothing: the tasks in it do what they do without it, and stop where they stop without
it. A list with groups, inside each other to any depth, is compared with the list that it is
flattened to.

What is added by a group is its own failure in the journal, after that of the task inside it, and
that its file was looked up. All other events are those of the tasks.

## Main results

* `Groups.runEntry_apply` : a group does what the list inside it does
* `Flattened.abreast` : a list and what it is flattened to are run alike, and stop at the same task
* `Flattened.grouping_transparent` : groups change nothing
-/

namespace SoftwareCensus.Tasks

open Run Interpreter

/-! ## Groups -/

/-- Whether a task has no modifier that changes what the list inside it does. -/
structure Definition.Bare (t : Definition) : Prop where
  items : t.items = none
  register : t.register = none
  condition : t.condition = none
  ignoreErrors : t.ignoreErrors = none
  environment : t.environment = none
  vars : t.vars = []

/-- A task that does nothing but to run a list: a block, or the inclusion of a file that is there.
-/
inductive Groups (i : Interpreter) (d : Document) (inner : List Document) : Prop where
  | block {t : Definition} (read : Definition.parse 0 d = .ok t) (bare : t.Bare)
      (payload : t.payload = .block inner)
  | inclusion {t : Definition} {path : String} (read : Definition.parse 0 d = .ok t) (bare : t.Bare)
      (payload : t.payload = .inclusion (.str path)) (plain : Template.isTemplate path = false)
      (loads : Config.loadTaskList i.files (i.locate path) = .ok inner)

section Groups

variable {i : Interpreter} {entries : Fields} {inner : List Document}

/-- A block with a name and nothing else is a group. -/
theorem groups_block (h : Definition.Only entries blockKey (.list inner)) :
    Groups i (.map entries) inner :=
  .block (Definition.parse_only h (fun _ => rfl) 0) ⟨rfl, rfl, rfl, rfl, rfl, rfl⟩ rfl

/-- The inclusion of a file, with a name and nothing else, is a group. -/
theorem groups_inclusion {path : String} (h : Definition.Only entries inclusionKey (.str path))
    (hplain : Template.isTemplate path = false)
    (hloads : Config.loadTaskList i.files (i.locate path) = .ok inner) :
    Groups i (.map entries) inner :=
  .inclusion (Definition.parse_only h (fun _ => rfl) 0) ⟨rfl, rfl, rfl, rfl, rfl, rfl⟩ rfl hplain
    hloads

end Groups

/-- Lists of tasks and what they are flattened to. Any of the groups in a list may be opened, and
any of the groups inside them, or inside the blocks that stay. -/
inductive Flattened (i : Interpreter) : List Document → List Document → Prop where
  | nil : Flattened i [] []
  | kept {d : Document} {rest flat : List Document} (after : Flattened i rest flat) :
      Flattened i (d :: rest) (d :: flat)
  | opened {d : Document} {inner flat rest flat' : List Document} (group : Groups i d inner)
      (inside : Flattened i inner flat) (after : Flattened i rest flat') :
      Flattened i (d :: rest) (flat ++ flat')
  /-- A block stays, with modifiers that stand before and behind its list. -/
  | scope {front back : Fields} {inner flat rest flat' : List Document}
      (inside : Flattened i inner flat) (after : Flattened i rest flat') :
      Flattened i (.map (Definition.scope front back inner) :: rest)
        (.map (Definition.scope front back flat) :: flat')

section Bare

variable {i : Interpreter} {t : Definition} {run : List Document → Run Unit} {action : Action}

theorem carryOut_of_bare (h : t.Bare) : i.carryOut run t action = i.perform run t action := by
  have hlayer : layerOf t = pure none := by rw [layerOf, h.environment]
  rw [carryOut, hlayer, h.vars]
  rfl

theorem attempt_of_bare (h : t.Bare) :
    i.attempt run t action = some <$> i.perform run t action := by
  have hwanted : isWanted t = pure true := by rw [isWanted, h.condition]
  rw [attempt, hwanted, carryOut_of_bare h]
  rfl

/-- Without modifiers a task that runs lists does this and no more. -/
theorem runAction_of_bare (h : t.Bare) (hplugin : t.payload.isPlugin = false) (s : Session) :
    i.runAction run t action s = match i.perform run t action s with
      | (.ok _, mid) => (.ok (), mid)
      | (.error e, mid) => (.error e, mid.noted (.failed e)) := by
  have hignore : ignoresErrors t = pure false := by rw [ignoresErrors, h.ignoreErrors]
  have hitems : itemsOf t = pure [none] := by rw [itemsOf, h.items]
  have hrun : ∀ {ended}, runItems (i.runItem run t action false) 0 [none] s = ended →
      i.runAction run t action s = conclude t ended.1.1 ended.1.2 ended.2 := by
    rintro _ rfl
    rw [runAction, hignore, hitems]
    rfl
  -- There is one item, and it is bound to no name.
  have hitem : withBindings (i.attempt run t action) (itemBindings t none 0) s =
      match i.perform run t action s with
      | (.ok d, mid) => (.ok (some d), mid)
      | (.error e, mid) => (.error e, mid) := by
    rw [attempt_of_bare h, map_eq_pure_bind]
    show (i.perform run t action >>= fun d => pure (some d)) s = _
    rw [bind_apply]
    cases i.perform run t action s with
    | mk outcome mid => cases outcome <;> rfl
  -- From the only item on, the error or the result is handed through.
  rw [hrun (runItems_cons ..), runItem_apply, hitem]
  generalize i.perform run t action s = result
  obtain ⟨e | d, mid⟩ := result
  · have hends : e.propagates false = true := rfl
    simp only [hends, if_true, conclude_of_not_plugin hplugin, h.register]
    rfl
  · show conclude t _ none mid = _
    simp only [conclude_of_not_plugin hplugin, h.register]
    rfl

end Bare

/-! ## Comparing runs -/

/-- Events that tell what tasks do. A failure is told once more by every group around it, and groups
look up files. -/
def Event.isStep : Event → Bool
  | .consulted _ | .included _ _ _ | .failed _ => false
  | _ => true

/-- Sessions are alike when their contexts are equal and the same was done in them. Errors are alike
when they are equal but for the place of a task without a name. -/
def stepwise : Pairing where
  alike s s' := s.context = s'.context ∧
    s.journal.filter Event.isStep = s'.journal.filter Event.isStep
  errors := Error.SameButPlace
  context_eq h := h.1
  changed change h := ⟨congrArg change h.1, h.2⟩
  noted := fun {_ _ event} _ h => by
    refine ⟨h.1, ?_⟩
    show (event :: _).filter _ = (event :: _).filter _
    rw [List.filter_cons, List.filter_cons, h.2]
  failed _ h := h
  ignorable := fun herrors hignorable => by
    cases herrors with
    | same => rfl
    | unnamed flaw index index' => simp [Error.isIgnorable] at hignorable
  dynamic _ := .same _

theorem stepwise_errors (e : Error) : stepwise.errors e e := .same e

theorem stepwise_trans {s mid s' : Session} (h : stepwise.alike s mid) (h' : stepwise.alike mid s') :
    stepwise.alike s s' :=
  ⟨h.1.trans h'.1, h.2.trans h'.2⟩

theorem stepwise_symm {s s' : Session} (h : stepwise.alike s s') : stepwise.alike s' s :=
  ⟨h.1.symm, h.2.symm⟩

/-- What is no step does not count. -/
theorem stepwise_noted {s s' : Session} {event : Event} (hstep : event.isStep = false)
    (h : stepwise.alike s s') : stepwise.alike (s.noted event) s' := by
  refine ⟨h.1, ?_⟩
  show (event :: s.journal).filter _ = _
  rw [List.filter_cons_of_neg (by simp [hstep]), h.2]

/-- Sessions are alike when they are equal. -/
def identical : Pairing where
  alike := Eq
  errors := Eq
  context_eq h := congrArg Session.context h
  changed change h := congrArg (·.changed change) h
  noted := fun {_ _ event} _ h => congrArg (·.noted event) h
  failed he h := he ▸ h ▸ rfl
  ignorable h _ := h
  dynamic _ := rfl

/-! ## What a group does -/

section Groups

variable {i : Interpreter} {d : Document} {inner : List Document} {cut : Prop}
  {run : List Document → Run Unit}

theorem included_of_plain {path : String} (label : String)
    (hplain : Template.isTemplate path = false)
    (hloads : Config.loadTaskList i.files (i.locate path) = .ok inner) (s : Session) :
    i.included label (.str path) s = (.ok inner, (s.noted (.consulted (i.locate path))).noted
      (.included label (i.locate path) inner.length)) := by
  have hrender : Template.render s.context.lookup (.str path) = .ok (.str path) := by
    rw [Template.render, Template.renderText_of_not_isTemplate _ hplain]
  rw [included, bind_apply, render_apply, hrender]
  show (Run.note _ >>= _) s = _
  rw [bind_apply]
  simp only [hloads]
  rfl

/-- **A group does what the list inside it does.** If that fails, the failure is noted once for its
only item and once for the task. -/
theorem Groups.runEntry_apply (h : Groups i d inner) (run : List Document → Run Unit) (index : Nat)
    (s : Session) :
    ∃ opened, stepwise.alike opened s ∧ i.runEntry run index d s = match run inner opened with
      | (.ok _, mid) => (.ok (), mid)
      | (.error e, mid) => (.error e, (mid.noted (.failed e)).noted (.failed e)) := by
  -- The place in the list does not matter, since the task can be read.
  have hread : ∀ {t}, Definition.parse 0 d = .ok t → Definition.parse index d = .ok t := by
    intro t ht
    have hplace := Definition.parse_place d 0 index
    rw [ht] at hplace
    generalize Definition.parse index d = reading at hplace
    cases hplace with
    | ok => rfl
  have hentry : ∀ {t action}, Definition.parse 0 d = .ok t → i.actionOf t.payload = .ok action →
      i.runEntry run index d s = noteFailure (i.runAction run t action) s := by
    intro t action ht haction
    rw [runEntry, hread ht]
    show noteFailure (i.runTask run t) s = _
    rw [runTask_eq, haction]
    rfl
  cases h with
  -- A block notes nothing on the way in.
  | @block t ht hbare hpayload =>
    have hplugin : t.payload.isPlugin = false := by rw [hpayload]; rfl
    refine ⟨s, ⟨rfl, rfl⟩, ?_⟩
    rw [hentry ht (by rw [hpayload]; rfl), noteFailure, runAction_of_bare hbare hplugin, perform,
      bind_apply]
    generalize run inner s = result
    obtain ⟨e | _, mid⟩ := result <;> rfl
  -- An inclusion notes the file that is looked up and the tasks in it, and neither is a step.
  | @inclusion t path ht hbare hpayload hplain hloads =>
    have hplugin : t.payload.isPlugin = false := by rw [hpayload]; rfl
    refine ⟨(s.noted (.consulted (i.locate path))).noted
      (.included t.label (i.locate path) inner.length),
      stepwise_noted rfl (stepwise_noted rfl ⟨rfl, rfl⟩), ?_⟩
    rw [hentry ht (by rw [hpayload]; rfl), noteFailure, runAction_of_bare hbare hplugin, perform,
      bind_apply, included_of_plain _ hplain hloads]
    dsimp only
    rw [bind_apply]
    generalize run inner _ = result
    obtain ⟨e | _, mid⟩ := result <;> rfl

theorem Groups.relates_right (h : Groups i d inner) {act : Run Unit} {index : Nat}
    (hact : stepwise.Relates cut act (run inner)) :
    stepwise.Relates cut act (i.runEntry run index d) := by
  intro s s' halike
  obtain ⟨opened, hopened, hrun⟩ := h.runEntry_apply run index s'
  have hinner := hact s opened (stepwise_trans halike (stepwise_symm hopened))
  -- What is around the list inside is a failure that is noted, and that is no step.
  rw [hrun]
  generalize act s = result, run inner opened = result' at hinner
  obtain ⟨outcome, mid⟩ := result
  obtain ⟨outcome', mid'⟩ := result'
  rcases hinner with hcut | ⟨houtcome, hmid⟩
  · exact .inl hcut
  · cases houtcome with
    | ok => exact .inr ⟨.ok (), hmid⟩
    | error he =>
      exact .inr ⟨.error he,
        stepwise_symm (stepwise_noted rfl (stepwise_noted rfl (stepwise_symm hmid)))⟩

end Groups

section Levels

variable {p : Pairing} {i : Interpreter} {cut : Prop} {inner inner' : List Document → Run Unit}

/-- A task is alike in two runs that run lists alike, wherever it is in a list. -/
theorem relates_entry (hrefl : ∀ e, p.errors e e) {d : Document} {index index' : Nat}
    (hparse : p.SameOutcome (Definition.parse index d) (Definition.parse index' d))
    (hinner : ∀ tasks, p.Relates cut (inner tasks) (inner' tasks)) :
    p.Relates cut (i.runEntry inner index d) (i.runEntry inner' index' d) := by
  refine Pairing.Relates.runEntry ?_
  generalize Definition.parse index d = reading, Definition.parse index' d = reading' at hparse
  cases hparse with
  | error h => exact .inl ⟨_, _, rfl, rfl, h⟩
  | ok t =>
    exact .inr ⟨t, t, rfl, rfl, Pairing.admits_of_refl hrefl,
      .self (fun _ => hinner _) fun _ => hinner⟩

/-- More levels change nothing in a run that ends. -/
theorem relates_levels (hrefl : ∀ e, p.errors e e) {n m : Nat} (h : n ≤ m) (tasks : List Document) :
    p.Relates True (i.runTasks n tasks) (i.runTasks m tasks) := by
  induction n generalizing m tasks with
  | zero =>
    -- Without a level left, every list is cut off.
    exact fun _ _ _ => .inl ⟨trivial, rfl⟩
  | succ n ih =>
    obtain ⟨m, rfl⟩ : ∃ k, m = k + 1 := ⟨m - 1, by omega⟩
    have hinner : ∀ tasks, p.Relates True (i.runTasks n tasks) (i.runTasks m tasks) :=
      ih (Nat.le_of_succ_le_succ h)
    have hparse : ∀ k d, p.SameOutcome (Definition.parse k d) (Definition.parse k d) := fun k d => by
      cases Definition.parse k d with
      | ok t => exact .ok t
      | error e => exact .error (hrefl e)
    show p.Relates True (i.runFrom (i.runTasks n) 0 tasks) (i.runFrom (i.runTasks m) 0 tasks)
    exact .runFrom fun _ => relates_entry hrefl (hparse _ _) hinner

end Levels

/-! ## Where a run stops -/

/-- Where a run of a list stops, told by what the list is flattened to: the tasks of `done` were
done, and `d` failed in the context `c`. -/
inductive StopsAt (i : Interpreter) :
    Nat → Nat → List Document → Session → List Document → Document → Context → Error → Prop where
  | here {levels index : Nat} {d d' : Document} {rest : List Document} {s after : Session} {e : Error}
      (opens : Flattened i [d] [d'])
      (fails : i.runEntry (i.runTasks levels) index d s = (.error e, after)) :
      StopsAt i levels index (d :: rest) s [] d' s.context e
  | inside {levels index : Nat} {d d' : Document} {inner rest done : List Document}
      {s opened : Session} {c : Context} {e : Error} (group : Groups i d inner)
      (same : opened.context = s.context) (stops : StopsAt i levels 0 inner opened done d' c e) :
      StopsAt i (levels + 1) index (d :: rest) s done d' c e
  | later {levels index : Nat} {d d' : Document} {flat rest done : List Document} {s mid : Session}
      {c : Context} {e : Error} (opens : Flattened i [d] flat)
      (passes : i.runEntry (i.runTasks levels) index d s = (.ok (), mid))
      (stops : StopsAt i levels (index + 1) rest mid done d' c e) :
      StopsAt i levels index (d :: rest) s (flat ++ done) d' c e

section Stops

variable {i : Interpreter} {levels index : Nat} {tasks more done : List Document} {d : Document}
  {s mid : Session} {c : Context} {e : Error}

theorem StopsAt.append_right (h : StopsAt i levels index tasks s done d c e) (more : List Document) :
    StopsAt i levels index (tasks ++ more) s done d c e := by
  induction h with
  | here opens fails => exact .here opens fails
  | inside group same stops => exact .inside group same stops
  | later opens passes stops ih => exact .later opens passes ih

theorem runFrom_append (run : List Document → Run Unit) (index : Nat) (tasks more : List Document)
    (s : Session) :
    i.runFrom run index (tasks ++ more) s =
      (i.runFrom run index tasks >>= fun _ => i.runFrom run (index + tasks.length) more) s := by
  induction tasks generalizing index s with
  | nil => rfl
  | cons d rest ih =>
    rw [List.cons_append, runFrom, runFrom, bind_apply, bind_apply, bind_apply]
    cases i.runEntry run index d s with
    | mk outcome mid =>
      cases outcome with
      | error e => rfl
      | ok _ =>
        show i.runFrom run (index + 1) (rest ++ more) mid = _
        rw [ih, bind_apply, List.length_cons, Nat.add_right_comm, Nat.add_assoc]

theorem runFrom_singleton (run : List Document → Run Unit) (index : Nat) (d : Document) (s : Session) :
    i.runFrom run index [d] s = i.runEntry run index d s := by
  rw [runFrom, bind_apply]
  cases i.runEntry run index d s with
  | mk outcome mid => cases outcome <;> rfl

theorem StopsAt.append_left
    (hdone : i.runFrom (i.runTasks levels) index tasks s = (.ok (), mid))
    (h : StopsAt i levels (index + tasks.length) more mid done d c e) :
    StopsAt i levels index (tasks ++ more) s (tasks ++ done) d c e := by
  induction tasks generalizing index s with
  | nil =>
    obtain rfl : s = mid := (Prod.mk.inj hdone).2
    exact h
  | cons first rest ih =>
    obtain ⟨⟨⟩, between, hfirst, hrest⟩ := bind_eq_ok hdone
    rw [List.length_cons, ← Nat.add_assoc, Nat.add_right_comm] at h
    show StopsAt i levels index (first :: (rest ++ more)) s ([first] ++ (rest ++ done)) d c e
    exact .later (.kept .nil) hfirst (ih hrest h)

end Stops

/-! ## Lists side by side -/

/-- A list and what it is flattened to are run alike, and stop at the same task. -/
structure Together (i : Interpreter) (n m index index' : Nat) (tasks flat : List Document)
    (s s' : Session) : Prop where
  ends : stepwise.SameEnd (i.runFrom (i.runTasks n) index tasks s)
    (i.runFrom (i.runTasks m) index' flat s')
  stops : ∀ e, (i.runFrom (i.runTasks n) index tasks s).1 = .error e →
    ∃ e' done d later c, (i.runFrom (i.runTasks m) index' flat s').1 = .error e' ∧
      flat = done ++ d :: later ∧ StopsAt i n index tasks s done d c e ∧
      StopsAt i m index' flat s' done d c e'

/-- The same, unless the list is cut off. -/
def Abreast (i : Interpreter) (n m index index' : Nat) (tasks flat : List Document) (s s' : Session) :
    Prop :=
  (i.runFrom (i.runTasks n) index tasks s).1 = .error .endless ∨
    Together i n m index index' tasks flat s s'

section Together

variable {i : Interpreter} {n m index index' : Nat} {d d' : Document}
  {inner rest flat flat' : List Document} {s s' : Session}

theorem sameOutcome_of_reading {α : Type} {reading reading' : Except Error α}
    (h : SameReading reading reading') : stepwise.SameOutcome reading reading' := by
  cases h with
  | ok x => exact .ok x
  | error he => exact .error he

/-- A task is run alike at two places. -/
theorem relates_kept (hle : n ≤ m) (d : Document) (index index' : Nat) :
    stepwise.Relates True (i.runEntry (i.runTasks n) index d)
      (i.runEntry (i.runTasks m) index' d) :=
  relates_entry stepwise_errors (sameOutcome_of_reading (Definition.parse_place d index index'))
    (relates_levels stepwise_errors hle)

/-- Blocks with lists that are run alike are run alike. -/
theorem relates_scope {cut : Prop} {run run' : List Document → Run Unit}
    (h : stepwise.Relates cut (run inner) (run' flat)) (front back : Fields) (index index' : Nat) :
    stepwise.Relates cut (i.runEntry run index (.map (Definition.scope front back inner)))
      (i.runEntry run' index' (.map (Definition.scope front back flat))) := by
  have hplace := Definition.parse_place (.map (Definition.scope front back flat)) index index'
  refine Pairing.Relates.runEntry ?_
  rcases Definition.parse_scope index front back with ⟨e, he⟩ | ⟨t, ht⟩
  · -- What is wrong with such a task is wrong with it whatever its list is.
    rw [he flat] at hplace
    generalize Definition.parse index' _ = reading at hplace
    cases hplace with
    | error he' => exact .inl ⟨e, _, he inner, rfl, he'⟩
  · rw [ht flat] at hplace
    generalize Definition.parse index' _ = reading at hplace
    cases hplace with
    | ok => exact .inr ⟨_, _, ht inner, rfl, Pairing.admits_of_refl .same, .block rfl h⟩

/-- A task that stays where it is. -/
theorem Abreast.entry (hflat : Flattened i [d] [d'])
    (hentry : stepwise.Relates True (i.runEntry (i.runTasks n) index d)
      (i.runEntry (i.runTasks m) index' d')) (halike : stepwise.alike s s') :
    Abreast i n m index index' [d] [d'] s s' := by
  have hgrouped := runFrom_singleton (i := i) (i.runTasks n) index d s
  have hplain := runFrom_singleton (i := i) (i.runTasks m) index' d' s'
  rcases hentry s s' halike with ⟨-, hcut⟩ | hends
  · exact .inl (hgrouped ▸ hcut)
  refine .inr ⟨by rw [hgrouped, hplain]; exact hends, fun e hstop => ?_⟩
  -- If anything stops there, it is the task itself in both runs.
  rw [hgrouped] at hstop
  rw [hplain]
  cases hd : i.runEntry (i.runTasks n) index d s with
  | mk outcome mid =>
    cases hd' : i.runEntry (i.runTasks m) index' d' s' with
    | mk outcome' mid' =>
      rw [hd] at hends hstop
      rw [hd'] at hends
      obtain rfl : outcome = .error e := hstop
      obtain ⟨houtcome, -⟩ := hends
      cases houtcome with
      | @error _ e' he =>
        refine ⟨e', [], d', [], s.context, rfl, rfl, .here hflat hd, ?_⟩
        rw [halike.1]
        exact .here (.kept .nil) hd'

/-- A group that is opened. -/
theorem Abreast.group (hgroup : Groups i d inner)
    (hinner : ∀ opened, stepwise.alike opened s' → Abreast i n m 0 index' inner flat opened s')
    (halike : stepwise.alike s s') : Abreast i (n + 1) m index index' [d] flat s s' := by
  obtain ⟨opened, hopened, hd⟩ := hgroup.runEntry_apply (i.runTasks (n + 1)) index s
  have hopens : i.runTasks (n + 1) inner opened = i.runFrom (i.runTasks n) 0 inner opened := rfl
  rw [← runFrom_singleton, hopens] at hd
  rcases hinner opened (stepwise_trans hopened halike) with hcut | ⟨hends, hstops⟩
  · -- What cuts off the list cuts off the group.
    refine .inl ?_
    rw [hd]
    generalize i.runFrom (i.runTasks n) 0 inner opened = result at hcut
    obtain ⟨outcome, mid⟩ := result
    obtain rfl : outcome = .error .endless := hcut
    rfl
  · generalize i.runFrom (i.runTasks n) 0 inner opened = result at hd hends hstops
    obtain ⟨outcome, mid⟩ := result
    obtain ⟨houtcome, hmid⟩ := hends
    cases outcome with
    | ok x => exact .inr ⟨⟨by rw [hd]; exact houtcome, by rw [hd]; exact hmid⟩, by rw [hd]; nofun⟩
    | error e =>
      -- The failure is told twice more, and comes from the task inside.
      refine .inr ⟨⟨by rw [hd]; exact houtcome, ?_⟩, fun why hstop => ?_⟩
      · rw [hd]
        exact stepwise_noted rfl (stepwise_noted rfl hmid)
      · rw [hd] at hstop
        obtain rfl : e = why := Except.error.inj hstop
        obtain ⟨e', done, stop, later, c, herror, hsplit, hinside, hplain⟩ := hstops e rfl
        exact ⟨e', done, stop, later, c, herror, hsplit, .inside hgroup hopened.1 hinside, hplain⟩

/-- **The first task and those after it**, each beside what it is flattened to. -/
theorem Abreast.cons (hopens : Flattened i [d] flat)
    (hfirst : Abreast i n m index index' [d] flat s s')
    (hrest : ∀ mid mid', stepwise.alike mid mid' →
      Abreast i n m (index + 1) (index' + flat.length) rest flat' mid mid') :
    Abreast i n m index index' (d :: rest) (flat ++ flat') s s' := by
  have hgrouped : i.runFrom (i.runTasks n) index (d :: rest) s = _ :=
    runFrom_append (i := i) (i.runTasks n) index [d] rest s
  have hplain := runFrom_append (i := i) (i.runTasks m) index' flat flat' s'
  rw [bind_apply] at hgrouped hplain
  cases hrun : i.runFrom (i.runTasks n) index [d] s with
  | mk outcome mid =>
    rw [hrun] at hgrouped
    rcases hfirst with hcut | ⟨⟨houtcome, hmid⟩, hstops⟩
    · rw [hrun] at hcut
      obtain rfl : outcome = .error .endless := hcut
      exact .inl (congrArg Prod.fst hgrouped)
    cases hrun' : i.runFrom (i.runTasks m) index' flat s' with
    | mk outcome' mid' =>
      rw [hrun, hrun'] at houtcome hmid
      rw [hrun, hrun'] at hstops
      rw [hrun'] at hplain
      cases houtcome with
      | @error e e' he =>
        -- Both runs stop before the rest is reached.
        refine .inr ⟨by rw [hgrouped, hplain]; exact ⟨.error he, hmid⟩, fun why hstop => ?_⟩
        rw [hgrouped] at hstop
        obtain rfl : e = why := Except.error.inj hstop
        obtain ⟨why, done, stop, later, c, herror, hsplit, hstop, hstop'⟩ := hstops e rfl
        rw [hplain]
        refine ⟨why, done, stop, later ++ flat', c, herror, by rw [hsplit]; simp, ?_, ?_⟩
        · exact hstop.append_right rest
        · exact hstop'.append_right flat'
      | ok x =>
        have hpasses : i.runEntry (i.runTasks n) index d s = (.ok (), mid) :=
          (runFrom_singleton ..).symm.trans hrun
        -- The rest begins where the first part passed, so what was done so far comes before it.
        rcases hrest mid mid' hmid with hcut | ⟨hends, hstops⟩
        · exact .inl (by rw [hgrouped]; exact hcut)
        · refine .inr ⟨by rw [hgrouped, hplain]; exact hends, fun e hstop => ?_⟩
          rw [hgrouped] at hstop
          obtain ⟨e', done, stop, later, c, herror, hsplit, hstop, hstop'⟩ := hstops e hstop
          rw [hplain]
          refine ⟨e', flat ++ done, stop, later, c, herror, by rw [hsplit]; simp, ?_, ?_⟩
          · exact .later hopens hpasses hstop
          · exact .append_left hrun' hstop'

end Together

section Flattened

variable {i : Interpreter} {tasks flat : List Document}

/-- **A list and what it is flattened to are run alike, and stop at the same task**, unless the list
is cut off. -/
theorem Flattened.abreast (h : Flattened i tasks flat) {n m : Nat} (hle : n ≤ m) {s s' : Session}
    (halike : stepwise.alike s s') (index index' : Nat) :
    Abreast i n m index index' tasks flat s s' := by
  induction h generalizing n m s s' index index' with
  | nil => exact .inr ⟨⟨.ok (), halike⟩, nofun⟩
  | @kept d rest flat after ih =>
    have hfirst : Abreast i n m index index' [d] [d] s s' :=
      .entry (.kept .nil) (relates_kept hle d index index') halike
    exact .cons (.kept .nil) hfirst fun mid mid' hmid => ih hle hmid (index + 1) (index' + 1)
  | @scope front back inner flat rest flat' inside after ihInside ihAfter =>
    have hinner : stepwise.Relates True (i.runTasks n inner) (i.runTasks m flat) := by
      -- The list inside the block has a level less.
      cases n with
      | zero => exact fun _ _ _ => .inl ⟨trivial, rfl⟩
      | succ n =>
        obtain ⟨m, rfl⟩ : ∃ k, m = k + 1 := ⟨m - 1, by omega⟩
        intro s s' halike
        rcases ihInside (Nat.le_of_succ_le_succ hle) halike 0 0 with hcut | htogether
        · exact .inl ⟨trivial, hcut⟩
        · exact .inr htogether.ends
    have hentry := relates_scope (i := i) hinner front back index index'
    have hfirst := Abreast.entry (.scope inside .nil) hentry halike
    exact .cons (.scope inside .nil) hfirst fun mid mid' hmid =>
      ihAfter hle hmid (index + 1) (index' + 1)
  | @opened d inner flat rest flat' group inside after ihInside ihAfter =>
    cases n with
    -- Without a level left, the list inside the group is cut off, and the group with it.
    | zero =>
      obtain ⟨opened, -, hd⟩ := group.runEntry_apply (i.runTasks 0) index s
      refine .inl ?_
      rw [runFrom, bind_apply, hd]
      rfl
    | succ n =>
      have hopens : Flattened i [d] flat := List.append_nil flat ▸ Flattened.opened group inside .nil
      have hfirst : Abreast i (n + 1) m index index' [d] flat s s' :=
        .group group (fun opened hopened => ihInside (Nat.le_of_succ_le hle) hopened 0 index') halike
      exact .cons hopens hfirst fun mid mid' hmid =>
        ihAfter hle hmid (index + 1) (index' + flat.length)

/-- What a list is flattened to is run as the list is, if there are as many levels more for the list
as groups are inside each other. -/
theorem Flattened.relates_grouped (h : Flattened i tasks flat) :
    ∃ deep, ∀ n m, n + deep ≤ m → ∀ index index', stepwise.Relates True
      (i.runFrom (i.runTasks n) index' flat) (i.runFrom (i.runTasks m) index tasks) := by
  induction h with
  | nil => exact ⟨0, fun _ _ _ _ _ => .pure ()⟩
  | @kept d rest flat after ih =>
    obtain ⟨deep, hrest⟩ := ih
    refine ⟨deep, fun n m hle index index' => ?_⟩
    have hentry := relates_kept (i := i) (by omega : n ≤ m) d index' index
    exact hentry.bind fun _ => hrest n m hle _ _
  | @scope front back inner flat rest flat' inside after ihInside ihAfter =>
    obtain ⟨deep, hinside⟩ := ihInside
    obtain ⟨deep', hrest⟩ := ihAfter
    -- The block and the tasks behind it need no more levels than the deeper of the two.
    refine ⟨max deep deep', fun n m hle index index' => ?_⟩
    have hinner : stepwise.Relates True (i.runTasks n flat) (i.runTasks m inner) := by
      cases n with
      | zero => exact fun _ _ _ => .inl ⟨trivial, rfl⟩
      | succ n =>
        obtain ⟨m, rfl⟩ : ∃ k, m = k + 1 := ⟨m - 1, by omega⟩
        exact hinside n m (by omega) 0 0
    exact (relates_scope hinner front back index' index).bind fun _ => hrest n m (by omega) _ _
  | @opened d inner flat rest flat' group inside after ihInside ihAfter =>
    obtain ⟨deep, hinside⟩ := ihInside
    obtain ⟨deep', hrest⟩ := ihAfter
    -- A group that is opened takes one level more than what is inside.
    refine ⟨max (deep + 1) deep', fun n m hle index index' => ?_⟩
    obtain ⟨m, rfl⟩ : ∃ k, m = k + 1 := ⟨m - 1, by omega⟩
    have hentry : stepwise.Relates True (i.runFrom (i.runTasks n) index' flat)
        (i.runEntry (i.runTasks (m + 1)) index d) :=
      group.relates_right (hinside n m (by omega) 0 index')
    have hlist := hentry.bind fun _ => hrest n (m + 1) (by omega) (index + 1) (index' + flat.length)
    intro s s' halike
    rw [runFrom_append]
    exact hlist s s' halike

/-- **Groups change nothing.** A list of tasks ends as the list that it is flattened to: with an
error that is the same but for the place of a task without a name, in an equal context, and after
the same steps; and an error comes from the same task, in the same context. That one of them ends,
at some number of levels, means that the other one does. -/
theorem Flattened.grouping_transparent (h : Flattened i tasks flat) (s : Session) :
    (∀ levels, (i.runTasks levels tasks s).1 ≠ .error .endless →
      stepwise.SameEnd (i.runTasks levels tasks s) (i.runTasks levels flat s) ∧
        ∀ e, (i.runTasks levels tasks s).1 = .error e →
          ∃ e' done d later c, (i.runTasks levels flat s).1 = .error e' ∧
            flat = done ++ d :: later ∧ StopsAt i (levels - 1) 0 tasks s done d c e ∧
            StopsAt i (levels - 1) 0 flat s done d c e') ∧
    ∀ levels, (i.runTasks levels flat s).1 ≠ .error .endless →
      ∃ enough, ∀ more, enough ≤ more → (i.runTasks more tasks s).1 ≠ .error .endless ∧
        i.runTasks more flat s = i.runTasks levels flat s := by
  have hsame : stepwise.alike s s := ⟨rfl, rfl⟩
  constructor
  · intro levels hends
    cases levels with
    | zero => exact absurd rfl hends
    | succ depth =>
      have htogether := (h.abreast (Nat.le_refl depth) hsame 0 0).resolve_left hends
      exact ⟨htogether.ends, htogether.stops⟩
  · intro levels hends
    cases levels with
    | zero => exact absurd rfl hends
    | succ depth =>
      obtain ⟨deep, hgrouped⟩ := h.relates_grouped
      refine ⟨depth + deep + 1, fun more hmore => ?_⟩
      obtain ⟨most, rfl⟩ : ∃ k, more = k + 1 := ⟨more - 1, by omega⟩
      constructor
      · rcases hgrouped depth most (by omega) 0 0 s s hsame with ⟨-, hcut⟩ | ⟨houtcome, -⟩
        · exact absurd hcut hends
        · intro hcut
          -- An error that can be told from this one only by a place is this one.
          have houtcome : stepwise.SameOutcome (i.runTasks (depth + 1) flat s).1
              (i.runTasks (most + 1) tasks s).1 := houtcome
          rw [hcut] at houtcome
          generalize (i.runTasks (depth + 1) flat s).1 = outcome at houtcome hends
          cases houtcome with
          | error he =>
            have heq := he.symm.eq_of_not_definition nofun
            exact hends (heq ▸ rfl)
      · rcases relates_levels (p := identical) (i := i) (fun _ => rfl)
            (by omega : depth + 1 ≤ most + 1) flat s s rfl with ⟨-, hcut⟩ | ⟨houtcome, halike⟩
        · exact absurd hcut hends
        · refine Prod.ext ?_ halike.symm
          generalize (i.runTasks (depth + 1) flat s).1 = outcome,
            (i.runTasks (most + 1) flat s).1 = outcome' at houtcome
          cases houtcome with
          | ok x => rfl
          | error he => exact he ▸ rfl

private def withFile : Interpreter where
  registry := .builtin
  files := fun _ => .text "[{}]"
  levels := 3

private def fact (name : String) : Document :=
  .map [("set_instance_fact", .map [(name, .int 1)])]

/-- A block with a name, in which a file is included. -/
private def setup : Document :=
  .map [("block", .list [fact "b", .map [("include_tasks", .str "more.yml")]]), ("name", .str "setup")]

/-- Whether a list holds one task that does nothing. -/
private def isOneEmptyTask (tasks : List Document) : Bool :=
  tasks.length == 1 && tasks.all fun d => d.asMap?.any List.isEmpty

private theorem eq_of_isOneEmptyTask {tasks : List Document} (h : isOneEmptyTask tasks = true) :
    tasks = [.map []] := by
  obtain ⟨hlength, hall⟩ := Bool.and_eq_true_iff.mp h
  obtain ⟨d, rfl⟩ := List.length_eq_one_iff.mp (by simpa using hlength)
  have hd : d.asMap?.any List.isEmpty = true := by simpa using hall
  cases d with
  | map fields =>
    cases fields with
    | nil => rfl
    | cons entry rest => cases hd
  | _ => cases hd

/-- The task in the file has no name and does nothing. It is known by its place, which is the first
one in the file and the third one in the flattened list. -/
theorem grouping_transparent_setup :
    Flattened withFile [fact "a", setup] [fact "a", fact "b", .map []] ∧
      failure? (withFile.run [fact "a", setup] default).1 =
        some (.definition (.noPayload "#0")) ∧
      failure? (withFile.run [fact "a", fact "b", .map []] default).1 =
        some (.definition (.noPayload "#2")) ∧
      stepwise.SameEnd (withFile.run [fact "a", setup] default)
        (withFile.run [fact "a", fact "b", .map []] default) := by
  have hloads : Config.loadTaskList withFile.files (withFile.locate "more.yml") = .ok [.map []] := by
    have hread : (Config.loadTaskList withFile.files (withFile.locate "more.yml")).toOption.any
        isOneEmptyTask = true := by decide +kernel
    generalize Config.loadTaskList withFile.files (withFile.locate "more.yml") = result at hread ⊢
    cases result with
    | error e => cases hread
    | ok tasks => exact congrArg Except.ok (eq_of_isOneEmptyTask hread)
  have hfile : Groups withFile (.map [("include_tasks", .str "more.yml")]) [.map []] :=
    groups_inclusion ⟨by decide, by simp [inclusionKey]⟩ (by decide) hloads
  have hinner : Flattened withFile [fact "b", .map [("include_tasks", .str "more.yml")]]
      (fact "b" :: ([.map []] ++ [])) := .kept (.opened hfile (.kept .nil) .nil)
  have hsetup : Groups withFile setup [fact "b", .map [("include_tasks", .str "more.yml")]] :=
    groups_block ⟨by decide, by simp [blockKey]⟩
  have hflat : Flattened withFile [fact "a", setup] [fact "a", fact "b", .map []] :=
    .kept (Flattened.opened hsetup hinner .nil)
  have hends : failure? (withFile.run [fact "a", setup] default).1 =
      some (.definition (.noPayload "#0")) := by decide +kernel
  have hended : (withFile.run [fact "a", setup] default).1 ≠ .error .endless := by
    generalize (withFile.run [fact "a", setup] default).1 = outcome at hends
    rintro rfl
    simp [failure?] at hends
  exact ⟨hflat, hends, by decide +kernel,
    ((hflat.grouping_transparent default).1 withFile.levels hended).1⟩

end Flattened

end SoftwareCensus.Tasks
