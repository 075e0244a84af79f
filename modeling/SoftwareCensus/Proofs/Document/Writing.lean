import SoftwareCensus.Proofs.Document.Places

/-!
# Writing to a Place

A write goes down a path and opens a new mapping where a key is missing. Where it succeeds, the
place holds the value. Where it fails it may have opened mappings before: a first one under a key
that was missing, and others inside of it, until a position in a list was asked for.

## Main results

* `at?_setAt` : what is written to a place stands there
* `at?_setAt_of_beside` : nothing else changes, whether the write succeeds or not
* `extended_setAt_of_obstacle` : what a failed write leaves
* `setAt_writes_there` : all of this for one write
-/

namespace SoftwareCensus.Document

/-! ## Going down -/

/-- What a write goes into with a step: what is there, or a new mapping where a key is missing. -/
def entered? (d : Document) (step : Step) : Option Document :=
  match step, d with
  | .key name, map fields => some ((Fields.get? fields name).getD empty)
  | step, d => d.child? step

theorem entered?_of_child? {d inner : Document} {step : Step} (h : d.child? step = some inner) :
    d.entered? step = some inner := by
  unfold child? at h
  split at h
  · simp [entered?, h]
  · exact h
  · cases h

/-- What a write goes into is there, or it is a new mapping. -/
theorem entered?_cases {d inner : Document} {step : Step} (h : d.entered? step = some inner) :
    d.child? step = some inner ∨
      d.child? step = none ∧ inner = empty ∧ ∃ name fields, step = .key name ∧ d = map fields := by
  unfold entered? at h
  split at h
  case h_1 name fields =>
    obtain rfl := Option.some.inj h
    -- A key that is missing leads into a new mapping, and only a mapping has keys.
    cases hname : Fields.get? fields name with
    | some inner => exact .inl hname
    | none => exact .inr ⟨hname, rfl, name, fields, rfl, rfl⟩
  case h_2 => exact .inl h

theorem obstacle_setChild_of_entered? {d inner : Document} {step : Step}
    (h : d.entered? step = some inner) (value : Document) :
    (d.setChild step value).obstacle = none := by
  rcases entered?_cases h with hchild | ⟨-, -, name, fields, rfl, rfl⟩
  · exact obstacle_setChild_of_child? hchild value
  · rfl

/-- A failed write of one step leaves the document as it is. -/
theorem document_setChild_of_obstacle {d value : Document} {step : Step}
    (h : (d.setChild step value).obstacle ≠ none) : (d.setChild step value).document = d := by
  unfold setChild at h ⊢
  -- A write to a key cannot fail, one to a position fails outside of the list, and anything else is
  -- no container.
  split
  · simp at h
  · grind
  · rfl

variable {d inner value : Document} {step : Step} {rest : Path}

/-- A write puts what it leaves of the inner value in its place, whether it succeeds or not. -/
theorem setAt_cons (hrest : rest ≠ []) (h : d.entered? step = some inner) (value : Document) :
    d.setAt (step :: rest) value =
      ⟨(d.setChild step (inner.setAt rest value).document).document,
        (inner.setAt rest value).obstacle⟩ := by
  obtain ⟨next, more, rfl⟩ := List.exists_cons_of_ne_nil hrest
  rcases entered?_cases h with hchild | ⟨hchild, rfl, name, fields, rfl, rfl⟩
  · -- What is there is entered, be it in a mapping or in a list.
    unfold child? at hchild
    split at hchild
    case h_1 name fields => simp only [setAt, setChild, hchild, Option.getD_some]
    case h_2 i items =>
      obtain ⟨hin, -⟩ := List.getElem?_eq_some_iff.mp hchild
      simp only [setAt, setChild, hchild, if_pos hin]
    case h_3 => cases hchild
  · have hmissing : Fields.get? fields name = none := hchild
    simp only [setAt, setChild, hmissing, Option.getD_none]

/-- Where a write cannot go on, it leaves the document as it is. -/
theorem setAt_cons_of_entered?_eq_none (hrest : rest ≠ []) (h : d.entered? step = none)
    (value : Document) : ∃ obstacle, d.setAt (step :: rest) value = ⟨d, some obstacle⟩ := by
  obtain ⟨next, more, rfl⟩ := List.exists_cons_of_ne_nil hrest
  unfold setAt
  split
  case h_1 name fields => cases h
  case h_2 i items =>
    have hitem : items[i]? = none := h
    simp [hitem]
  case h_3 => exact ⟨_, rfl⟩

/-! ## The place itself -/

/-- **What is written to a place stands there.** -/
theorem at?_setAt : ∀ (path : Path) {d : Document}, (d.setAt path value).obstacle = none →
    (d.setAt path value).document.at? path = some value
  | [], _, h => by cases h
  | [step], d, h => by
    have hset : (d.setChild step value).obstacle = none := h
    show (d.setChild step value).document.at? [step] = some value
    simp [child?_setChild hset]
  | step :: next :: rest, d, h => by
    cases hinner : d.entered? step with
    | none =>
      -- The write cannot have succeeded.
      obtain ⟨obstacle, hset⟩ :=
        setAt_cons_of_entered?_eq_none (List.cons_ne_nil next rest) hinner value
      rw [hset] at h
      cases h
    | some inner =>
      rw [setAt_cons (List.cons_ne_nil next rest) hinner value] at h ⊢
      rw [at?_cons, child?_setChild (obstacle_setChild_of_entered? hinner _), if_pos rfl]
      exact at?_setAt (next :: rest) h

/-- What is there can be written over. -/
theorem obstacle_setAt_of_at? : ∀ (path : Path) {d old : Document}, path ≠ [] →
    d.at? path = some old → (d.setAt path value).obstacle = none
  | [], _, _, hpath, _ => absurd rfl hpath
  | [step], d, _, _, h => by
    obtain ⟨inner, hinner, -⟩ := Option.bind_eq_some_iff.mp h
    exact obstacle_setChild_of_child? hinner value
  | step :: next :: rest, d, _, _, h => by
    obtain ⟨inner, hinner, hold⟩ := Option.bind_eq_some_iff.mp h
    rw [setAt_cons (List.cons_ne_nil next rest) (entered?_of_child? hinner) value]
    exact obstacle_setAt_of_at? (next :: rest) (List.cons_ne_nil next rest) hold

/-! ## All other places -/

/-- **A write changes nothing beside its place**, whether it succeeds or not. -/
theorem at?_setAt_of_beside : ∀ (path : Path) {d : Document} {other : Path}, path.Beside other →
    (d.setAt path value).document.at? other = d.at? other
  | [], _, _, _ => rfl
  | [step], d, other, h => by
    obtain ⟨first, more, rfl⟩ := List.exists_cons_of_ne_nil h.ne_nil
    have hfirst : first ≠ step := by
      rintro rfl
      exact h.1 (by simp)
    show (d.setChild step value).document.at? _ = _
    -- A step that leads elsewhere is not touched, and a write that fails touches nothing.
    by_cases hobstacle : (d.setChild step value).obstacle = none
    · rw [at?_cons, child?_setChild hobstacle, if_neg hfirst, at?_cons]
    · rw [document_setChild_of_obstacle hobstacle]
  | step :: next :: rest, d, other, h => by
    cases hinner : d.entered? step with
    | none =>
      obtain ⟨obstacle, hset⟩ :=
        setAt_cons_of_entered?_eq_none (List.cons_ne_nil next rest) hinner value
      rw [hset]
    | some inner =>
      obtain ⟨first, more, rfl⟩ := List.exists_cons_of_ne_nil h.ne_nil
      rw [setAt_cons (List.cons_ne_nil next rest) hinner value, at?_cons, at?_cons,
        child?_setChild (obstacle_setChild_of_entered? hinner _)]
      -- Inside the value that the step leads to it is the rest of the path that counts.
      by_cases hfirst : first = step
      · subst hfirst
        have hmore := Path.beside_cons.mp h
        rw [if_pos rfl]
        refine (at?_setAt_of_beside (next :: rest) hmore).trans ?_
        -- A mapping that was opened has nothing inside, as there was nothing.
        rcases entered?_cases hinner with hchild | ⟨hchild, rfl, -⟩
        · rw [hchild]
          rfl
        · rw [hchild]
          exact at?_empty hmore.ne_nil
      · rw [if_neg hfirst]

/-! ## What a failed write leaves -/

/-- A mapping with nothing but a mapping under the first of some names, with nothing but a mapping
under the second, and so on. -/
def nested : List String → Document
  | [] => empty
  | name :: rest => map [(name, nested rest)]

/-- In a new mapping a write opens further ones, until a position in a list is asked for. -/
theorem nested_setAt_of_obstacle : ∀ (path : Path), path ≠ [] →
    (empty.setAt path value).obstacle ≠ none →
      ∃ names i rest, path = List.map Step.key names ++ .index i :: rest ∧
        (empty.setAt path value).document = nested names
  | [], hpath, _ => absurd rfl hpath
  | [.key _], _, h => absurd rfl h
  | [.index i], _, _ => ⟨[], i, [], rfl, rfl⟩
  | .index i :: next :: rest, _, _ => ⟨[], i, next :: rest, rfl, rfl⟩
  | .key name :: next :: rest, _, h => by
    have hentered : empty.entered? (.key name) = some empty := rfl
    have hset := setAt_cons (List.cons_ne_nil next rest) hentered value
    rw [hset] at h ⊢
    -- The key opens one more mapping, and the failure is inside of it.
    obtain ⟨names, i, more, hpath, hdocument⟩ :=
      nested_setAt_of_obstacle (next :: rest) (List.cons_ne_nil next rest) h
    refine ⟨name :: names, i, more, ?_, ?_⟩
    · rw [hpath]
      rfl
    · show (empty.setChild (.key name) (empty.setAt (next :: rest) value).document).document = _
      rw [hdocument]
      rfl

/-- The second document is the first one with a further entry in one of its mappings, under a key
that was missing. -/
def Extended (front : Path) (name : String) (new d e : Document) : Prop :=
  ∃ fields : Fields, fields.get? name = none ∧
    Replaced front (map fields) (map (fields.insert name new)) d e

namespace Extended

variable {front : Path} {name : String} {new e : Document}

theorem under {left : Document} (hstep : d.child? step = some inner)
    (h : Extended front name new inner left) :
    Extended (step :: front) name new d (d.setChild step left).document := by
  obtain ⟨fields, hmissing, hreplaced⟩ := h
  exact ⟨fields, hmissing, hreplaced.under hstep⟩

/-- Every value that was there still is, with the further entry inside if it is around the place. -/
theorem keeps (h : Extended front name new d e) {other : Path} {old : Document}
    (hold : d.at? other = some old) :
    ∃ kept, e.at? other = some kept ∧
      (kept = old ∨ ∃ back, front = other ++ back ∧ Extended back name new old kept) := by
  obtain ⟨fields, hmissing, hreplaced⟩ := h
  by_cases hon : other <+: front
  · -- The value is around the place, and has the further entry inside.
    obtain ⟨back, rfl⟩ := hon
    obtain ⟨whole, left, hwhole, hleft, hinside⟩ := hreplaced.around
    obtain rfl := Option.some.inj (hwhole.symm.trans hold)
    exact ⟨left, hleft, .inr ⟨back, rfl, fields, hmissing, hinside⟩⟩
  · refine ⟨old, ?_, .inl rfl⟩
    by_cases hin : front <+: other
    · obtain ⟨back, rfl⟩ := hin
      cases back with
      | nil => exact absurd (by simp) hon
      | cons first more =>
        -- The new entry is not among those that were there.
        have hfirst : first ≠ .key name := by
          rintro rfl
          rw [at?_append, hreplaced.before] at hold
          simp [hmissing] at hold
        have hset : ((map fields).setChild (.key name) new).obstacle = none := rfl
        have hchild : (map (fields.insert name new)).child? first = (map fields).child? first :=
          (child?_setChild hset first).trans (if_neg hfirst)
        rw [at?_append, hreplaced.before] at hold
        rw [at?_append, hreplaced.after, ← hold]
        simp only [Option.bind_some, at?_cons, hchild]
    · rw [hreplaced.beside other ⟨hin, hon⟩, hold]

end Extended

/-- **A failed write leaves the document as it is**, or with new mappings inside each other under a
key that was missing on the way. -/
theorem extended_setAt_of_obstacle : ∀ (path : Path) {d : Document}, d.Ordered → path ≠ [] →
    (d.setAt path value).obstacle ≠ none →
      (d.setAt path value).document = d ∨
      ∃ front name names i rest, path = front ++ .key name :: (names.map .key ++ .index i :: rest) ∧
        Extended front name (nested names) d (d.setAt path value).document
  | [], _, _, hpath, _ => absurd rfl hpath
  | [step], d, _, _, h => .inl (document_setChild_of_obstacle h)
  | step :: next :: rest, d, hd, _, h => by
    cases hinner : d.entered? step with
    | none =>
      -- The write cannot go on from here, so nothing was changed.
      obtain ⟨obstacle, hset⟩ :=
        setAt_cons_of_entered?_eq_none (List.cons_ne_nil next rest) hinner value
      exact .inl (by rw [hset])
    | some inner =>
      rw [setAt_cons (List.cons_ne_nil next rest) hinner value] at h ⊢
      rcases entered?_cases hinner with hchild | ⟨hchild, rfl, name, fields, rfl, rfl⟩
      · -- The failure is inside a value that was there.
        have hinside := extended_setAt_of_obstacle (next :: rest) (hd.child? hchild)
          (List.cons_ne_nil next rest) h
        rcases hinside with hsame | ⟨front, name, names, i, more, hpath, hextended⟩
        · rw [hsame]
          exact .inl (setChild_self hd hchild)
        · refine .inr ⟨step :: front, name, names, i, more, ?_, hextended.under hchild⟩
          rw [hpath]
          rfl
      · -- The failure is inside a mapping that was opened.
        obtain ⟨names, i, more, hpath, hdocument⟩ :=
          nested_setAt_of_obstacle (next :: rest) (List.cons_ne_nil next rest) h
        refine .inr ⟨[], name, names, i, more, ?_, fields, hchild, rfl, ?_, fun other hother => ?_⟩
        · rw [hpath]
          rfl
        · rw [hdocument]
          rfl
        · exact absurd List.nil_prefix hother.1

/-! ## One write -/

/-- **A write changes its place and no other.** It succeeds where something is to be written over.
After a success the place holds the value. After a failure everything that was there still is: the
document is as before, or there is one more key in a mapping on the way, with nothing under it but
new mappings inside each other, up to a position in a list that the path asks for. -/
theorem setAt_writes_there {d : Document} (hd : d.Ordered) {path : Path} (hpath : path ≠ [])
    (value : Document) :
    (∀ old, d.at? path = some old → (d.setAt path value).obstacle = none) ∧
    ((d.setAt path value).obstacle = none →
      (d.setAt path value).document.at? path = some value) ∧
    (∀ other, path.Beside other → (d.setAt path value).document.at? other = d.at? other) ∧
    ((d.setAt path value).obstacle ≠ none →
      ((d.setAt path value).document = d ∨
        ∃ front name names i rest,
          path = front ++ .key name :: (names.map .key ++ .index i :: rest) ∧
          Extended front name (nested names) d (d.setAt path value).document) ∧
      ∀ other old, d.at? other = some old →
        ∃ kept, (d.setAt path value).document.at? other = some kept ∧
          (kept = old ∨ ∃ front name names, Extended front name (nested names) old kept)) := by
  refine ⟨fun old hold => obstacle_setAt_of_at? path hpath hold, at?_setAt path,
    fun other hother => at?_setAt_of_beside path hother, fun hobstacle => ?_⟩
  have hleft := extended_setAt_of_obstacle path hd hpath hobstacle
  refine ⟨hleft, fun other old hold => ?_⟩
  rcases hleft with hsame | ⟨front, name, names, i, rest, -, hextended⟩
  · exact ⟨old, by rw [hsame, hold], .inl rfl⟩
  · obtain ⟨kept, hkept, hinside⟩ := hextended.keeps hold
    refine ⟨kept, hkept, hinside.imp_right ?_⟩
    rintro ⟨back, -, hback⟩
    exact ⟨back, name, names, hback⟩

/-- A list with a mapping in it. -/
private def shelf : Document := map [("list", list [map [("x", int 1)]])]

/-- A place inside a list that would be inside new mappings. -/
private def outOfReach : Path :=
  [.key "list", .index 0, .key "new", .key "inner", .index 2, .key "z"]

private theorem ordered_shelf : shelf.Ordered := by
  simp [shelf, Ordered, ValuesOrdered, AllOrdered, Fields.Ascending]

/-- The write fails at the position in the list, with two mappings opened before. -/
theorem setAt_writes_there_opened :
    shelf.Ordered ∧ outOfReach ≠ [] ∧ (shelf.setAt outOfReach (int 5)).obstacle ≠ none ∧
      (shelf.setAt outOfReach (int 5)).document.at? [.key "list", .index 0, .key "x"] =
        some (int 1) ∧
      ((shelf.setAt outOfReach (int 5)).document = shelf ∨
        ∃ front name names i rest,
          outOfReach = front ++ .key name :: (names.map .key ++ .index i :: rest) ∧
          Extended front name (nested names) shelf (shelf.setAt outOfReach (int 5)).document) := by
  have hpath : outOfReach ≠ [] := by decide
  have hobstacle : (shelf.setAt outOfReach (int 5)).obstacle ≠ none := by
    have hfails : (shelf.setAt outOfReach (int 5)).obstacle =
        some (.cannotDescend "a mapping" (.index 2)) := by rfl
    simp [hfails]
  have hbeside : Path.Beside outOfReach [.key "list", .index 0, .key "x"] := by
    simp [Path.Beside, outOfReach]
  obtain ⟨-, -, hframe, hfailed⟩ := setAt_writes_there ordered_shelf hpath (int 5)
  exact ⟨ordered_shelf, hpath, hobstacle, hframe _ hbeside, (hfailed hobstacle).1⟩

end SoftwareCensus.Document
