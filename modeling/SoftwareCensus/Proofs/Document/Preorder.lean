import SoftwareCensus.Proofs.Document.Places

/-!
# Places in Preorder

Whoever goes through a document meets every place in it once: a value before what is inside it, and
what is inside in the order of its keys or items. That is the order of the paths, compared step by
step. So a list of things that are found on the way is told by the places at which they are found.

## Main results

* `Document.inside_induction` : documents are made of what is directly inside them
* `Document.mem_places_iff`, `Document.pairwise_places` : all places, each once, in preorder
* `Document.gathers_filterMap` : what is found on the way through all places
-/

namespace SoftwareCensus

/-! ## The order of places -/

/-- Whether a step comes before another one into the same value. -/
inductive Step.Before : Step → Step → Prop
  | key {name later : String} (h : name < later) : Before (.key name) (.key later)
  | index {i j : Nat} (h : i < j) : Before (.index i) (.index j)

/-- Whether a place is met before another one: paths are compared step by step, and the way to a
place comes before the place. -/
def Path.Before : Path → Path → Prop := List.Lex Step.Before

/-- No step comes before itself. -/
theorem Step.not_before_self (step : Step) : ¬ step.Before step := by
  rintro (h | h)
  · exact lt_irrefl _ h
  · exact Nat.lt_irrefl _ h

/-- No place is met before itself. -/
theorem Path.not_before_self (place : Path) : ¬ Path.Before place place :=
  List.lex_irrefl Step.not_before_self place

namespace Document

/-! ## What is inside -/

/-- What is directly inside a document, with the steps that lead there. -/
def inside : Document → List (Step × Document)
  | list items => items.zipIdx.map fun (d, i) => (.index i, d)
  | map fields => fields.map fun (key, d) => (.key key, d)
  | _ => []

variable {d e : Document}

/-- What is directly inside is what a step leads to. -/
theorem mem_inside_iff (hd : d.Ordered) {step : Step} :
    (step, e) ∈ d.inside ↔ d.child? step = some e := by
  cases d with
  | list items =>
    cases step <;> simp [inside, child?, List.mem_zipIdx_iff_getElem?]
  -- The keys of a mapping are in order, so each of its entries is found under its key.
  | map fields =>
    cases step with
    | key name =>
      simp only [inside, child?_map_key, List.mem_map, Prod.mk.injEq, Step.key.injEq]
      constructor
      · rintro ⟨entry, hentry, rfl, rfl⟩
        exact hd.1.get?_of_mem hentry
      · intro h
        exact ⟨(name, e), Fields.mem_of_get? h, rfl, rfl⟩
    | index i => simp [inside, child?]
  | _ => cases step <;> simp [inside, child?]

/-- The way to a place in a part begins with the step to the part. -/
theorem at?_of_mem_inside (hd : d.Ordered) {part : Step × Document} (hpart : part ∈ d.inside)
    (place : Path) : d.at? (part.1 :: place) = part.2.at? place := by
  rw [at?_cons, (mem_inside_iff hd).mp hpart, Option.bind_some]

/-- What is gathered from a list is gathered from its items. -/
theorem flatMap_inside_list {α : Type} (f : Document → List α) (items : List Document) :
    (list items).inside.flatMap (fun part => f part.2) = items.flatMap f := by
  conv_rhs => rw [← List.zipIdx_map_fst 0 items, List.flatMap_map]
  rw [inside, List.flatMap_map]

/-- What is inside comes in order. -/
theorem pairwise_inside (hd : d.Ordered) : d.inside.Pairwise fun a b => a.1.Before b.1 := by
  cases d with
  | list items =>
    -- Items are counted from the first on.
    have hcounted : (items.zipIdx.map Prod.snd).Pairwise (· < ·) := by
      rw [List.zipIdx_map_snd]
      exact List.pairwise_lt_range'
    exact List.pairwise_map.mpr ((List.pairwise_map.mp hcounted).imp .index)
  | map fields => exact List.pairwise_map.mpr (hd.1.imp .key)
  | _ => exact .nil

/-- What is inside a document is smaller. -/
theorem sizeOf_lt_of_mem_inside {part : Step × Document} (h : part ∈ d.inside) :
    sizeOf part.2 < sizeOf d := by
  cases d with
  | list items =>
    obtain ⟨⟨inner, i⟩, hitem, rfl⟩ := List.mem_map.mp h
    have hlt : sizeOf inner < sizeOf items :=
      List.sizeOf_lt_of_mem (List.fst_mem_of_mem_zipIdx hitem)
    simp only [list.sizeOf_spec]
    omega
  | map fields =>
    obtain ⟨⟨key, inner⟩, hentry, rfl⟩ := List.mem_map.mp h
    have hlt := List.sizeOf_lt_of_mem hentry
    simp only [map.sizeOf_spec, Prod.mk.sizeOf_spec] at hlt ⊢
    omega
  | _ => cases h

/-- What passes from what is directly inside a document to the document holds of all documents. -/
theorem inside_induction {P : Document → Prop}
    (node : ∀ d : Document, (∀ part ∈ d.inside, P part.2) → P d) (d : Document) : P d :=
  node d fun part _ => inside_induction node part.2
termination_by sizeOf d
decreasing_by exact sizeOf_lt_of_mem_inside ‹_›

/-! ## All places -/

/-- The places in a document in preorder. -/
def places (d : Document) : List Path :=
  [] :: d.inside.attach.flatMap fun part => (places part.1.2).map (part.1.1 :: ·)
termination_by sizeOf d
decreasing_by exact sizeOf_lt_of_mem_inside part.2

/-- The places in a document are the document itself, and then the places in its parts. -/
theorem places_eq (d : Document) :
    d.places = [] :: d.inside.flatMap fun part => part.2.places.map (part.1 :: ·) := by
  conv_rhs => rw [← List.attach_map_subtype_val d.inside, List.flatMap_map]
  rw [places]

/-- **All places** in a document are met, and nothing else. -/
theorem mem_places_iff (hd : d.Ordered) {place : Path} :
    place ∈ d.places ↔ ∃ e, d.at? place = some e := by
  induction d using inside_induction generalizing place with
  | node d ih =>
    rw [places_eq]
    cases place with
    | nil => simp
    | cons step rest =>
      simp only [List.mem_cons, reduceCtorEq, false_or, List.mem_flatMap, List.mem_map,
        List.cons.injEq, at?_cons, Option.bind_eq_some_iff]
      constructor
      -- A path that goes on begins with the step to a part.
      · rintro ⟨part, hpart, place, hplace, rfl, rfl⟩
        have hchild := (mem_inside_iff hd).mp hpart
        obtain ⟨e, he⟩ := (ih part hpart (hd.child? hchild)).mp hplace
        exact ⟨e, part.2, hchild, he⟩
      · rintro ⟨e, inner, hchild, he⟩
        have hpart := (mem_inside_iff hd).mpr hchild
        exact ⟨(step, inner), hpart, rest, (ih _ hpart (hd.child? hchild)).mpr ⟨e, he⟩, rfl, rfl⟩

/-- **Places are met in order**, and so none of them is met twice. -/
theorem pairwise_places (hd : d.Ordered) : d.places.Pairwise Path.Before := by
  induction d using inside_induction with
  | node d ih =>
    rw [places_eq, List.pairwise_cons]
    constructor
    -- The document itself comes before everything in it.
    · intro place hplace
      obtain ⟨part, -, hplace⟩ := List.mem_flatMap.mp hplace
      obtain ⟨rest, -, rfl⟩ := List.mem_map.mp hplace
      exact .nil
    · refine List.pairwise_flatMap.mpr ⟨fun part hpart => ?_, ?_⟩
      · -- Inside one part, the paths go on behind the same step.
        have hinner := hd.child? ((mem_inside_iff hd).mp hpart)
        exact List.pairwise_map.mpr ((ih part hpart hinner).imp .cons)
      · -- From one part to a later one, the first steps come in order.
        refine (pairwise_inside hd).imp fun hbefore place hplace later hlater => ?_
        obtain ⟨rest, -, rfl⟩ := List.mem_map.mp hplace
        obtain ⟨more, -, rfl⟩ := List.mem_map.mp hlater
        exact .rel hbefore

/-- What is found on the way through all places: at the document itself, and then in its parts. -/
theorem filterMap_places {α : Type} (found : Path → Option α) (d : Document) :
    d.places.filterMap found =
      (found []).toList ++ d.inside.flatMap fun part =>
        part.2.places.filterMap fun place => found (part.1 :: place) := by
  rw [places_eq, List.filterMap_cons, List.filterMap_flatMap]
  simp only [List.filterMap_map, Function.comp_def]
  cases found [] <;> rfl

/-! ## What is found -/

/-- Whether a list is what is wanted at places: all that is wanted at some place, for each place
once, and in preorder. -/
def Gathers (wanted : Path → Option Document) (found : List Document) : Prop :=
  ∃ places : List Path, places.Pairwise Path.Before ∧
    (∀ place, place ∈ places ↔ (wanted place).isSome = true) ∧ places.map wanted = found.map some

/-- **What is found on the way** is what is wanted, if it is wanted at places in the document only. -/
theorem gathers_filterMap (hd : d.Ordered) {wanted : Path → Option Document}
    (hwanted : ∀ place, (wanted place).isSome = true → ∃ e, d.at? place = some e) :
    Gathers wanted (d.places.filterMap wanted) := by
  refine ⟨d.places.filter fun place => (wanted place).isSome, (pairwise_places hd).filter _, ?_, ?_⟩
  · intro place
    rw [List.mem_filter, mem_places_iff hd]
    exact and_iff_right_of_imp (hwanted place)
  -- What is found at the places that are kept is what the search has found.
  · rw [List.map_filterMap_some_eq_filter_map_isSome, List.filter_map]
    rfl

end Document

end SoftwareCensus
