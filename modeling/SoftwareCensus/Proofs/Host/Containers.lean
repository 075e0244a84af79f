import SoftwareCensus.Host.Container
import SoftwareCensus.Proofs.Document.Entries

/-!
# Containers at an Address

The search for the process at an address has two steps: the first container at the address is found,
whether it runs or not, and then its process is asked for. So a container that does not run hides those
behind it, and what is found is the process of the first container there that runs, unless that one is
hidden.

## Main results

* `isAt_iff` : when a container can be reached at an address
* `pid?_eq_some_iff` : when a container runs
* `pidAt?_eq_some_iff` : which process is found at an address
* `process_at_address` : what is found, told by the containers that run
-/

namespace SoftwareCensus

/-! ## The first of a list -/

section First

variable {α : Type} {P Q : α → Prop} {xs : List α} {x y : α}

/-- Whether something is the first of a list that has a property. -/
def IsFirst (P : α → Prop) (xs : List α) (x : α) : Prop :=
  P x ∧ ∃ before after, xs = before ++ x :: after ∧ ∀ other ∈ before, ¬ P other

/-- What a search finds is the first that has the property it is searched for. -/
theorem find?_eq_some_iff_isFirst {p : α → Bool} (hp : ∀ x, p x = true ↔ P x) :
    xs.find? p = some x ↔ IsFirst P xs x := by
  simp only [List.find?_eq_some_iff_append, IsFirst, hp, Bool.not_eq_true', ← Bool.not_eq_true]

namespace IsFirst

theorem mem (h : IsFirst P xs x) : x ∈ xs := by
  obtain ⟨-, before, after, rfl, -⟩ := h
  exact List.mem_append_right before (List.mem_cons_self ..)

theorem unique (hx : IsFirst P xs x) (hy : IsFirst P xs y) : x = y := by
  -- Both are what a search finds, and a search finds one thing.
  classical
  have hfind : ∀ z, IsFirst P xs z → xs.find? (fun z => decide (P z)) = some z :=
    fun z => (find?_eq_some_iff_isFirst fun _ => decide_eq_true_iff).mpr
  exact Option.some.inj ((hfind x hx).symm.trans (hfind y hy))

/-- Where something has the property, there is a first. -/
theorem exists_of_mem (hx : x ∈ xs) (h : P x) : ∃ y, IsFirst P xs y := by
  -- The first is what a search finds, and a search finds something.
  classical
  have hsome : (xs.find? fun z => decide (P z)).isSome :=
    List.find?_isSome.mpr ⟨x, hx, decide_eq_true_iff.mpr h⟩
  obtain ⟨y, hy⟩ := Option.isSome_iff_exists.mp hsome
  exact ⟨y, (find?_eq_some_iff_isFirst fun _ => decide_eq_true_iff).mp hy⟩

/-- What is first and has another property is the first that has both. -/
theorem and (h : IsFirst P xs x) (hx : Q x) : IsFirst (fun y => P y ∧ Q y) xs x :=
  ⟨⟨h.1, hx⟩, let ⟨before, after, hxs, hbefore⟩ := h.2
    ⟨before, after, hxs, fun other hother hboth => hbefore other hother hboth.1⟩⟩

end IsFirst

end First

namespace Container

variable {ip : String} {container : Document} {containers : List Document} {pid : Pid}

/-! ## One container -/

/-- Whether a container has an address: in its settings, or in one of its networks. -/
def HasAddress (ip : String) (container : Document) : Prop :=
  ∃ settings, container.field? "NetworkSettings" = some settings ∧
    (settings.field? "IPAddress" = some (.str ip) ∨
      ∃ networks : Fields, settings.field? "Networks" = some (.map networks) ∧
        ∃ entry ∈ networks, entry.2.field? "IPAddress" = some (.str ip))

/-- Whether a container runs as a process: its state has an id, and not that of the root. -/
def Runs (container : Document) (pid : Pid) : Prop :=
  ∃ state d, container.field? "State" = some state ∧ state.field? "Pid" = some d ∧
    Pid.decode? (.ofDocument d) = some pid ∧ pid.isRoot = false

/-- Whether a container runs. -/
def IsLive (container : Document) : Prop := ∃ pid, Runs container pid

/-- An address is a text, and compared as it is. -/
theorem hasAddress_iff {d : Document} :
    hasAddress ip d = true ↔ d.field? "IPAddress" = some (.str ip) := by
  rw [hasAddress, beq_iff_eq]
  cases d.field? "IPAddress" with
  | none => simp
  | some address => cases address <;> simp [Document.asStr?]

theorem isAt_iff (container : Document) : isAt container ip = true ↔ HasAddress ip container := by
  rw [isAt]
  -- Without settings there is no address at all, and without networks only the one in the settings.
  cases hsettings : container.field? "NetworkSettings" with
  | none => simp [HasAddress, hsettings]
  | some settings =>
    simp only [HasAddress, hsettings, Option.some.injEq, exists_eq_left', Bool.or_eq_true,
      hasAddress_iff]
    refine or_congr_right ?_
    cases settings.field? "Networks" with
    | none => simp
    | some networks => cases networks <;> simp [Document.asMap?, hasAddress_iff]

theorem pid?_eq_some_iff : pid? container = some pid ↔ Runs container pid := by
  simp only [pid?, at_, Runs, List.foldl, Option.filter_eq_some_iff, Option.bind_eq_some_iff,
    Option.some.injEq, exists_eq_left', Bool.not_eq_true']
  constructor
  · rintro ⟨⟨d, ⟨state, hstate, hd⟩, hpid⟩, hroot⟩
    exact ⟨state, d, hstate, hd, hpid, hroot⟩
  · rintro ⟨state, d, hstate, hd, hpid, hroot⟩
    exact ⟨⟨d, ⟨state, hstate, hd⟩, hpid⟩, hroot⟩

/-! ## Containers at an address -/

/-- **The process that is found at an address** is that of the first container there. -/
theorem pidAt?_eq_some_iff : pidAt? containers ip = some pid ↔
    ∃ container, IsFirst (HasAddress ip) containers container ∧ Runs container pid := by
  simp only [pidAt?, Option.bind_eq_some_iff, find?_eq_some_iff_isFirst isAt_iff, pid?_eq_some_iff]

/-- Whether a process is that of the first container at an address that runs. -/
def IsFirstLiveAt (containers : List Document) (ip : String) (pid : Pid) : Prop :=
  ∃ container, IsFirst (fun c => HasAddress ip c ∧ IsLive c) containers container ∧
    Runs container pid

/-- Whether the first container at an address does not run. It hides those behind it. -/
def HasHidden (containers : List Document) (ip : String) : Prop :=
  ∃ container, IsFirst (HasAddress ip) containers container ∧ ¬ IsLive container

/-- **What is found at an address** is the process of the first container there that runs, unless one
that does not run stands before it at the same address. Where none runs, nothing is found. -/
theorem process_at_address (containers : List Document) (ip : String) :
    (∀ pid, pidAt? containers ip = some pid ↔
      IsFirstLiveAt containers ip pid ∧ ¬ HasHidden containers ip) ∧
    ((∀ c ∈ containers, HasAddress ip c → ¬ IsLive c) → pidAt? containers ip = none) := by
  constructor
  · intro pid
    rw [pidAt?_eq_some_iff]
    constructor
    -- The first container at the address runs, so it is the first of those that run, and it hides
    -- no other.
    · rintro ⟨container, hfirst, hruns⟩
      refine ⟨⟨container, hfirst.and ⟨pid, hruns⟩, hruns⟩, ?_⟩
      rintro ⟨other, hother, hstopped⟩
      obtain rfl := hfirst.unique hother
      exact hstopped ⟨pid, hruns⟩
    · rintro ⟨⟨container, hlive, hruns⟩, hhidden⟩
      -- Some container is at the address, so there is a first one, and that is looked at.
      obtain ⟨first, hfirst⟩ := IsFirst.exists_of_mem hlive.mem hlive.1.1
      have hfirstLive : IsLive first := by
        by_contra hstopped
        exact hhidden ⟨first, hfirst, hstopped⟩
      obtain rfl := hlive.unique (hfirst.and hfirstLive)
      exact ⟨container, hfirst, hruns⟩
  · intro hstopped
    rw [Option.eq_none_iff_forall_ne_some]
    intro pid hpid
    obtain ⟨container, hfirst, hruns⟩ := pidAt?_eq_some_iff.mp hpid
    exact hstopped container hfirst.mem hfirst.1 ⟨pid, hruns⟩

/-- A container with an address. -/
private def addressed (ip : String) (pid : Int) : Document :=
  .map [("NetworkSettings", .map [("IPAddress", .str ip)]), ("State", .map [("Pid", .int pid)])]

/-- The container that runs is not found if a stopped one has its address, too. -/
theorem stopped_container_hides_live :
    IsFirstLiveAt [addressed "10.0.0.5" 0, addressed "10.0.0.5" 77] "10.0.0.5" ⟨"77"⟩ ∧
      pidAt? [addressed "10.0.0.5" 0, addressed "10.0.0.5" 77] "10.0.0.5" = none := by
  have hruns : Runs (addressed "10.0.0.5" 77) ⟨"77"⟩ := pid?_eq_some_iff.mp (by decide)
  have haddress : HasAddress "10.0.0.5" (addressed "10.0.0.5" 77) := (isAt_iff _).mp (by decide)
  have hstopped : ¬ IsLive (addressed "10.0.0.5" 0) := by
    rintro ⟨pid, hpid⟩
    exact absurd (pid?_eq_some_iff.mpr hpid) nofun
  refine ⟨⟨addressed "10.0.0.5" 77, ⟨⟨haddress, ⟨"77"⟩, hruns⟩, [addressed "10.0.0.5" 0], [], rfl, ?_⟩,
    hruns⟩, by decide⟩
  -- The only container in front is the stopped one.
  rintro other hother ⟨-, hlive⟩
  obtain rfl := List.mem_singleton.mp hother
  exact hstopped hlive

end Container

end SoftwareCensus
