import SoftwareCensus.Document.Path
import SoftwareCensus.Proofs.Document.Ordered

/-!
# Places in a Document

A path is followed step by step, and what changes a document at a place goes down the path and puts
the new parts together on the way back. So all there is to know about such a change is what one step
does: `setChild` puts a value where a step leads to, and all other steps lead to what they led to
before.

Two paths part where neither is the beginning of the other. The place of the one is then neither
inside the value at the place of the other nor around it.

## Main results

* `Document.child?_setChild` : after a value is put where a step leads to, one step leads elsewhere
* `Document.Replaced.under` : a change of what a step leads to is a change of the whole
* `Document.Replaced.around` : what is around the place of a change is changed in the same way
-/

namespace SoftwareCensus

/-! ## Paths that part -/

/-- Whether another path is neither on the way to a place nor leads into it. -/
def Path.Beside (place other : Path) : Prop := ¬ place <+: other ∧ ¬ other <+: place

/-- Behind a common step, paths part if they did with it. -/
theorem Path.beside_cons {step : Step} {place other : Path} :
    Path.Beside (step :: place) (step :: other) ↔ Path.Beside place other := by
  simp only [Path.Beside, List.cons_prefix_cons, true_and]

theorem Path.beside_append (front : Path) {place other : Path} :
    Path.Beside (front ++ place) (front ++ other) ↔ Path.Beside place other := by
  simp only [Path.Beside, List.prefix_append_right_inj]

/-- No path parts from the empty one. -/
theorem Path.Beside.ne_nil {place other : Path} (h : Path.Beside place other) : other ≠ [] := by
  rintro rfl
  exact h.2 List.nil_prefix

namespace Document

/-! ## Following a path -/

@[simp]
theorem at?_nil (d : Document) : d.at? [] = some d := rfl

@[simp]
theorem at?_cons (d : Document) (step : Step) (rest : Path) :
    d.at? (step :: rest) = (d.child? step).bind (·.at? rest) := rfl

/-- A path that is made of two is followed along the first and then along the second. -/
theorem at?_append (d : Document) (front back : Path) :
    d.at? (front ++ back) = (d.at? front).bind (·.at? back) := by
  induction front generalizing d with
  | nil => rfl
  | cons step rest ih =>
    simp only [List.cons_append, at?_cons]
    cases d.child? step with
    | none => rfl
    | some inner => exact ih inner

/-- What is on the way to something is there. -/
theorem exists_at?_of_append {d e : Document} {front back : Path}
    (h : d.at? (front ++ back) = some e) :
    ∃ inner, d.at? front = some inner ∧ inner.at? back = some e := by
  rw [at?_append] at h
  exact Option.bind_eq_some_iff.mp h

@[simp]
theorem child?_map_key (fields : Fields) (name : String) :
    (map fields).child? (.key name) = fields.get? name := rfl

@[simp]
theorem child?_list_index (items : List Document) (i : Nat) :
    (list items).child? (.index i) = items[i]? := rfl

/-- Nothing is inside the empty mapping. -/
theorem at?_empty {path : Path} (h : path ≠ []) : empty.at? path = none := by
  cases path with
  | nil => exact absurd rfl h
  | cons step rest => cases step <;> rfl

/-! ## Putting a value where a step leads to -/

/-- Lists that differ in one item differ where one step leads to. -/
theorem child?_list_of_getElem? {items others : List Document} {i : Nat} {value : Document}
    (h : ∀ j : Nat, others[j]? = if j = i then some value else items[j]?) (other : Step) :
    (list others).child? other =
      if other = .index i then some value else (list items).child? other := by
  cases other with
  | key name => simp [child?]
  | index j => simp only [child?_list_index, h, Step.index.injEq]

/-- After a value is put where a step leads to, the step leads to it, and no other step leads
elsewhere than before. -/
theorem child?_setChild {d value : Document} {step : Step}
    (h : (d.setChild step value).obstacle = none) (other : Step) :
    (d.setChild step value).document.child? other =
      if other = step then some value else d.child? other := by
  unfold setChild at h ⊢
  split
  case h_1 name fields =>
    cases other with
    | key k => simp only [child?_map_key, Fields.get?_insert, Step.key.injEq]
    | index i => simp [child?]
  case h_2 i items =>
    split
    case isTrue hin =>
      -- An item is replaced.
      apply child?_list_of_getElem?
      intro j
      by_cases hj : j = i
      · simp [hj, hin]
      · simp [hj, List.getElem?_set_ne (Ne.symm hj)]
    case isFalse hout =>
      split
      case isTrue hend =>
        -- An item is appended, where the list had none.
        obtain rfl : i = items.length := by simpa using hend
        apply child?_list_of_getElem?
        intro j
        simp only [List.getElem?_append, List.getElem?_singleton]
        grind
      case isFalse hbeyond => simp [hout, hbeyond] at h
  case h_3 => simp at h

/-- What is there can be replaced. -/
theorem obstacle_setChild_of_child? {d inner : Document} {step : Step}
    (h : d.child? step = some inner) (value : Document) :
    (d.setChild step value).obstacle = none := by
  unfold child? at h
  split at h
  · rfl
  · obtain ⟨hin, -⟩ := List.getElem?_eq_some_iff.mp h
    simp [setChild, hin]
  · cases h

/-- A value that is put where it was changes nothing. -/
theorem setChild_self {d inner : Document} (hd : d.Ordered) {step : Step}
    (h : d.child? step = some inner) : (d.setChild step inner).document = d := by
  have hobstacle := obstacle_setChild_of_child? h inner
  unfold child? at h
  split at h
  · exact congrArg map (hd.1.insert_self h)
  · obtain ⟨hin, hitem⟩ := List.getElem?_eq_some_iff.mp h
    simp only [setChild, if_pos hin, ← hitem, List.set_getElem_self]
  · cases h

theorem Ordered.child? {d inner : Document} (hd : d.Ordered) {step : Step}
    (h : d.child? step = some inner) : inner.Ordered := by
  unfold Document.child? at h
  split at h
  · exact hd.of_get? h
  · exact allOrdered_iff.mp hd _ (List.mem_of_getElem? h)
  · cases h

/-! ## Changes in one place -/

/-- The second document is the first one with a new value in place of an old one. -/
structure Replaced (place : Path) (old new d e : Document) : Prop where
  before : d.at? place = some old
  after : e.at? place = some new
  beside : ∀ other, place.Beside other → e.at? other = d.at? other

namespace Replaced

variable {place : Path} {old new d e : Document}

/-- A change of what a step leads to is a change of the whole. -/
theorem under {inner left : Document} {step : Step} (hstep : d.child? step = some inner)
    (h : Replaced place old new inner left) :
    Replaced (step :: place) old new d (d.setChild step left).document := by
  have hchild := child?_setChild (obstacle_setChild_of_child? hstep left)
  refine ⟨?_, ?_, fun other hother => ?_⟩
  · rw [at?_cons, hstep]
    exact h.before
  · rw [at?_cons, hchild, if_pos rfl]
    exact h.after
  · cases other with
    | nil => exact absurd rfl hother.ne_nil
    | cons first more =>
      simp only [at?_cons, hchild]
      by_cases hfirst : first = step
      · -- Both paths go into the inner value, and part there.
        subst hfirst
        rw [if_pos rfl, hstep]
        exact h.beside more (Path.beside_cons.mp hother)
      · rw [if_neg hfirst]

/-- What is around the place of a change is changed in the same way. -/
theorem around {front back : Path} (h : Replaced (front ++ back) old new d e) :
    ∃ whole left, d.at? front = some whole ∧ e.at? front = some left ∧
      Replaced back old new whole left := by
  obtain ⟨whole, hwhole, hbefore⟩ := exists_at?_of_append h.before
  obtain ⟨left, hleft, hafter⟩ := exists_at?_of_append h.after
  refine ⟨whole, left, hwhole, hleft, hbefore, hafter, fun other hother => ?_⟩
  -- A path beside the rest of the place is beside all of it when it is followed from outside.
  have hbeside := h.beside (front ++ other) ((Path.beside_append front).mpr hother)
  rwa [at?_append, at?_append, hwhole, hleft] at hbeside

end Replaced

end Document

end SoftwareCensus
