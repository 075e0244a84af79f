import SoftwareCensus.Proofs.Document.Entries
import SoftwareCensus.Tasks.Definition

/-!
# Reading Tasks

What a task is does not depend on its place in a list; only a task without a name is known by its
place when something is wrong with it. What a task does not depend on the lists inside it, either:
two tasks that differ in these are read alike.

## Main results

* `Definition.parse_place` : a task is read alike at two places
* `Definition.parse_only` : a mapping with a name and one more entry is a task without modifiers
* `Definition.parse_scope` : tasks that differ in the list inside them are read alike
-/

namespace SoftwareCensus.Tasks

/-! ## Places -/

/-- What a task without a name is known by. -/
def placeLabel (index : Nat) : String := "#" ++ toString index

/-- A flaw of a task without a name at another place. -/
def Flaw.atPlace (index : Nat) : Flaw → Flaw
  | notMapping _ => notMapping index
  | secondPayload key _ => secondPayload key (placeLabel index)
  | noPayload _ => noPayload (placeLabel index)
  | blockNotList _ => blockNotList (placeLabel index)
  | inclusionWithoutFile _ => inclusionWithoutFile (placeLabel index)
  | fieldNotMapping field _ => fieldNotMapping field (placeLabel index)
  | flaw => flaw

/-- Whether two errors are the same but for the place by which a task without a name is known. -/
inductive Error.SameButPlace : Error → Error → Prop where
  | same (e : Error) : SameButPlace e e
  | unnamed (flaw : Flaw) (index index' : Nat) :
      SameButPlace (.definition (flaw.atPlace index)) (.definition (flaw.atPlace index'))

namespace Error.SameButPlace

/-- Two errors that differ in the place do so in either order. -/
theorem symm {e e' : Error} (h : SameButPlace e e') : SameButPlace e' e := by
  cases h with
  | same => exact .same _
  | unnamed flaw index index' => exact .unnamed flaw index' index

/-- Only errors of a definition tell a place. -/
theorem eq_of_not_definition {e e' : Error} (h : SameButPlace e e')
    (hother : ∀ flaw, e ≠ .definition flaw) : e = e' := by
  cases h with
  | same => rfl
  | unnamed flaw index index' => exact absurd rfl (hother _)

end Error.SameButPlace

/-- Two readings come to the same, but for the place by which a task is known in errors. -/
inductive SameReading {α : Type} : Except Error α → Except Error α → Prop where
  | ok (x : α) : SameReading (.ok x) (.ok x)
  | error {e e' : Error} (h : e.SameButPlace e') : SameReading (.error e) (.error e')

namespace SameReading

variable {α β : Type}

/-- A reading is the same as itself. -/
theorem refl (reading : Except Error α) : SameReading reading reading := by
  cases reading with
  | ok x => exact .ok x
  | error e => exact .error (.same e)

/-- Readings that are the same stay so when the same is done with what is read. -/
theorem bind {reading reading' : Except Error α} {next next' : α → Except Error β}
    (h : SameReading reading reading') (hnext : ∀ x, SameReading (next x) (next' x)) :
    SameReading (reading >>= next) (reading' >>= next') := by
  cases h with
  | ok x => exact hnext x
  | error h => exact .error h

end SameReading

namespace Definition

variable {entries : Fields} {index index' : Nat}

/-- The entry that says what a task does is found at both places, or at neither. -/
theorem payloadEntry_place :
    SameReading (payloadEntry (placeLabel index) entries)
      (payloadEntry (placeLabel index') entries) := by
  unfold payloadEntry
  split
  -- There is no such entry, one, or more than one.
  · exact .error (.unnamed (.noPayload "") index index')
  · exact .ok _
  · exact .error (.unnamed (.secondPayload _ "") index index')

/-- What the entry says does not depend on the place, either. -/
theorem payloadOf_place (key : String) (args : Document) :
    SameReading (payloadOf (placeLabel index) key args)
      (payloadOf (placeLabel index') key args) := by
  unfold payloadOf
  -- A list to run, a file to include, or a plugin to call.
  split
  · split
    · exact .ok _
    · exact .error (.unnamed (.blockNotList "") index index')
  · split
    · dsimp only
      split
      · exact .ok _
      · exact .error (.unnamed (.inclusionWithoutFile "") index index')
    · exact .ok _

/-- A modifier that has to be a mapping is one at both places, or at neither. -/
theorem mappingOf_place (field : String) :
    SameReading (mappingOf entries field (placeLabel index))
      (mappingOf entries field (placeLabel index')) := by
  unfold mappingOf
  split
  · exact .ok _
  · exact .ok _
  · exact .error (.unnamed (.fieldNotMapping field "") index index')

/-- **A task is read alike at two places.** -/
theorem parse_place (d : Document) (index index' : Nat) :
    SameReading (parse index d) (parse index' d) := by
  cases d with
  | map entries =>
    cases hname : nameOf? entries with
    | some name =>
      -- A task with a name is known by it.
      have hsame : parse index (.map entries) = parse index' (.map entries) := by
        unfold parse
        simp only [hname, Option.getD_some]
      exact hsame ▸ .refl _
    | none =>
      unfold parse
      simp only [hname, Option.getD_none]
      refine payloadEntry_place.bind fun entry => ?_
      refine (payloadOf_place entry.1 entry.2).bind fun payload => ?_
      refine (mappingOf_place "loop_control").bind fun control => ?_
      refine (mappingOf_place "vars").bind fun vars => ?_
      exact .refl _
  | _ => exact .error (.unnamed (.notMapping 0) index index')

/-- A task calls a plugin with the arguments as they are written, runs a list that is written there,
or includes a file. -/
theorem payloadOf_cases {label key : String} {args : Document} {payload : Payload}
    (h : payloadOf label key args = .ok payload) :
    payload = .plugin key args ∨ (∃ tasks, args = .list tasks ∧ payload = .block tasks) ∨
      ∃ file, payload = .inclusion file := by
  unfold payloadOf at h
  split at h
  -- A block has to be a list.
  · cases args with
    | list tasks =>
      cases h
      exact .inr (.inl ⟨tasks, rfl, rfl⟩)
    | _ => cases h
  · split at h
    · dsimp only at h
      split at h
      next file _ =>
        cases h
        exact .inr (.inr ⟨file, rfl⟩)
      next => cases h
    · cases h
      exact .inl rfl

/-- What a task does is said by one of its entries. -/
theorem parse_eq_ok {d : Document} {t : Definition} (h : parse index d = .ok t) :
    ∃ entries label key args, d = .map entries ∧ (key, args) ∈ entries ∧
      payloadOf label key args = .ok t.payload := by
  cases d with
  | map entries =>
    unfold parse at h
    dsimp only at h
    obtain ⟨⟨key, args⟩, hentry, h⟩ := except_bind_eq_ok h
    obtain ⟨payload, hpayload, h⟩ := except_bind_eq_ok h
    obtain ⟨control, -, h⟩ := except_bind_eq_ok h
    obtain ⟨vars, -, h⟩ := except_bind_eq_ok h
    obtain ⟨register, -, h⟩ := except_bind_eq_ok h
    obtain rfl := Except.ok.inj h
    refine ⟨entries, _, key, args, rfl, ?_, hpayload⟩
    -- The entry is what is left when the modifiers are taken away.
    unfold payloadEntry at hentry
    split at hentry
    next => cases hentry
    next only hfilter =>
      obtain rfl := Except.ok.inj hentry
      exact List.mem_of_mem_filter (hfilter ▸ List.mem_singleton.mpr rfl)
    next => cases hentry
  | _ => cases h

/-! ## Tasks without modifiers -/

/-- Whether a mapping has one entry beside the name, which says what the task does. -/
structure Only (entries : Fields) (key : String) (args : Document) : Prop where
  payload : modifierKeys.contains key = false
  entry : entries.filter (fun entry => entry.1 != "name") = [(key, args)]

namespace Only

variable {key : String} {args : Document}

/-- Without other modifiers the entry is found whatever the task is known by. -/
theorem payloadEntry_eq (h : Only entries key args) (label : String) :
    payloadEntry label entries = .ok (key, args) := by
  -- The name is a modifier, so it is not looked at among the other entries.
  have hname : (entries.filter fun entry => !modifierKeys.contains entry.1) =
      (entries.filter fun entry => entry.1 != "name").filter
        fun entry => !modifierKeys.contains entry.1 := by
    rw [List.filter_filter]
    refine List.filter_congr fun entry _ => ?_
    by_cases hkey : entry.1 = "name" <;> simp [modifierKeys, hkey]
  have hentry : (entries.filter fun entry => !modifierKeys.contains entry.1) = [(key, args)] := by
    rw [hname, h.entry]
    exact List.filter_cons_of_pos (by simp only [h.payload, Bool.not_false])
  unfold payloadEntry
  rw [hentry]

/-- No modifier is given. -/
theorem present_eq (h : Only entries key args) {modifier : String}
    (hmodifier : modifierKeys.contains modifier = true) (hname : modifier ≠ "name") :
    present entries modifier = none := by
  have hkey : (key == modifier) = false := by
    rw [beq_eq_false_iff_ne]
    rintro rfl
    exact Bool.false_ne_true (h.payload.symm.trans hmodifier)
  rw [present, ← Fields.get?_filter_ne hname, h.entry]
  simp [Fields.get?, hkey]

end Only

/-- **A mapping with a name and one more entry is a task without modifiers.** -/
theorem parse_only {key : String} {args : Document} (h : Only entries key args) {payload : Payload}
    (hpayload : ∀ label, payloadOf label key args = .ok payload) (index : Nat) :
    parse index (.map entries) = .ok
      { name := nameOf? entries, payload
        attributes := entries.filter fun entry => modifierKeys.contains entry.1 } := by
  have habsent : ∀ modifier ∈ modifierKeys, modifier ≠ "name" → present entries modifier = none :=
    fun modifier hmodifier => h.present_eq (List.contains_iff_mem.mpr hmodifier)
  simp only [modifierKeys, List.forall_mem_cons] at habsent
  obtain ⟨-, hloop, hregister, hwhen, hignore, hcontrol, henvironment, htimeout, hvars, -⟩ := habsent
  unfold parse
  simp only [h.payloadEntry_eq, mappingOf, registerOf, hloop (by decide),
    hregister (by decide), hwhen (by decide), hignore (by decide), hcontrol (by decide),
    henvironment (by decide), htimeout (by decide), hvars (by decide)]
  show (payloadOf _ key args >>= fun payload => _) = _
  rw [hpayload]
  rfl

/-! ## Tasks with lists inside -/

/-- The entries of a task that runs a list, among others. -/
def scope (front back : Fields) (tasks : List Document) : Fields :=
  front ++ (blockKey, .list tasks) :: back

variable {front back : Fields} {tasks : List Document}

/-- What is given under another key is given whatever the list is. -/
theorem present_scope {key : String} (h : key ≠ blockKey) :
    present (scope front back tasks) key = present (front ++ back) key := by
  rw [present, present, scope, Fields.get?_append_cons_ne h]

/-- A choice among the entries that takes the list. -/
theorem filter_scope {keep : String × Document → Bool} (h : keep (blockKey, .list tasks) = true) :
    (scope front back tasks).filter keep =
      front.filter keep ++ (blockKey, .list tasks) :: back.filter keep := by
  rw [scope, List.filter_append, List.filter_cons_of_pos h]

/-- A choice among the entries that leaves the list out. -/
theorem filter_scope_of_neg {keep : String × Document → Bool}
    (h : keep (blockKey, .list tasks) = false) :
    (scope front back tasks).filter keep = (front ++ back).filter keep := by
  rw [scope, List.filter_append, List.filter_cons_of_neg (by simp [h]), List.filter_append]

/-- The list is what the task does, or there is too much that it does. -/
theorem payloadEntry_scope (label : String) (front back : Fields) :
    (∀ tasks, payloadEntry label (scope front back tasks) = .ok (blockKey, .list tasks)) ∨
      ∃ e, ∀ tasks, payloadEntry label (scope front back tasks) = .error e := by
  have hfilter : ∀ tasks, (scope front back tasks).filter
      (fun entry => !modifierKeys.contains entry.1) = _ := fun tasks => filter_scope rfl
  unfold payloadEntry
  simp only [hfilter]
  generalize front.filter _ = before
  generalize back.filter _ = behind
  -- Any entry beside the list, in front or behind, is one too many.
  rcases before with _ | ⟨first, _ | ⟨second, before⟩⟩
  · rcases behind with _ | ⟨other, behind⟩
    · exact .inl fun _ => rfl
    · exact .inr ⟨_, fun _ => rfl⟩
  · exact .inr ⟨_, fun _ => rfl⟩
  · exact .inr ⟨_, fun _ => rfl⟩

/-- **Tasks that differ in the list inside them are read alike.** -/
theorem parse_scope (index : Nat) (front back : Fields) :
    (∃ e, ∀ tasks, parse index (.map (scope front back tasks)) = .error e) ∨
      ∃ t : Definition, ∀ tasks, parse index (.map (scope front back tasks)) =
        .ok { t with payload := .block tasks } := by
  have hname : ∀ tasks, nameOf? (scope front back tasks) = nameOf? (front ++ back) := fun tasks => by
    rw [nameOf?, nameOf?, present_scope (by decide)]
  have hmapping : ∀ tasks label field, field ≠ blockKey →
      mappingOf (scope front back tasks) field label = mappingOf (front ++ back) field label :=
    fun tasks label field hfield => by rw [mappingOf, mappingOf, present_scope hfield]
  have hregister : ∀ tasks, registerOf (scope front back tasks) = registerOf (front ++ back) :=
    fun tasks => by rw [registerOf, registerOf, present_scope (by decide)]
  have hmodifiers : ∀ tasks, (scope front back tasks).filter
      (fun entry => modifierKeys.contains entry.1) = _ := fun tasks => filter_scope_of_neg rfl
  -- After this, both sides read everything but the list from the entries around it.
  unfold parse
  simp only [hname, hmapping _ _ "loop_control" (by decide), hmapping _ _ "vars" (by decide),
    hregister, hmodifiers, present_scope (show "loop" ≠ blockKey by decide),
    present_scope (show "when" ≠ blockKey by decide),
    present_scope (show "ignore_errors" ≠ blockKey by decide),
    present_scope (show "environment" ≠ blockKey by decide),
    present_scope (show "timeout" ≠ blockKey by decide)]
  generalize (nameOf? (front ++ back)).getD ("#" ++ toString index) = label
  rcases payloadEntry_scope label front back with hentry | ⟨e, hentry⟩
  · have hblock : ∀ tasks, payloadOf label blockKey (.list tasks) = .ok (.block tasks) := fun _ => rfl
    simp only [hentry]
    -- What is wrong with a modifier is wrong with it whatever the list is.
    cases hcontrol : mappingOf (front ++ back) "loop_control" label with
    | error e => exact .inl ⟨e, fun tasks => rfl⟩
    | ok control =>
      cases hvars : mappingOf (front ++ back) "vars" label with
      | error e => exact .inl ⟨e, fun tasks => rfl⟩
      | ok vars =>
        cases hresult : registerOf (front ++ back) with
        | error e => exact .inl ⟨e, fun tasks => rfl⟩
        | ok register =>
          exact .inr ⟨⟨nameOf? (front ++ back), .block [], _, _, _, _, _, _, _, _, _⟩, fun tasks => rfl⟩
  · simp only [hentry]
    exact .inl ⟨e, fun tasks => rfl⟩

end Definition

end SoftwareCensus.Tasks
