import SoftwareCensus.Detection.Enrichment
import SoftwareCensus.Proofs.Host.Ancestors
import SoftwareCensus.Proofs.Host.ForestSockets

/-!
# Containers and Instances

A container goes to the first instance of a pass that it is connected with: its process is the
reported one, a child of it, or an ancestor of it above the first process. The containers are gone
through in the order of the inventory, and the place of an instance decides which of them it gets;
so what becomes of an instance is described for its place alone, by the containers that go there.

## Main results

* `mem_relatedPids_iff` : which processes connect a container with an instance
* `getElem?_attributeContainers` : an instance gets the containers that go to its place
* `getElem?_enrich` : the instances of a pass, place by place
* `containers_attributed` : who gets a container, and what an instance gains by those it gets
-/

namespace SoftwareCensus

/-! ## Tags of images -/

/-- Whether a text follows the last colon of the image's name. -/
def DockerSummary.HasTag (d : DockerSummary) (tag : String) : Prop :=
  tag ≠ "" ∧ ':' ∉ tag.toList ∧ ∃ name, d.image = .str (name ++ ":" ++ tag)

theorem DockerSummary.imageTag?_eq_some_iff {d : DockerSummary} {tag : String} :
    d.imageTag? = some tag ↔ d.HasTag tag := by
  rw [imageTag?, HasTag]
  -- Only a text has a tag; an image of any other kind has none on either side.
  split
  case h_1 image himage =>
    rw [Option.map_eq_some_iff]
    constructor
    · rintro ⟨tail, htail, rfl⟩
      obtain ⟨hlast, hnonempty⟩ := Option.filter_eq_some_iff.mp htail
      obtain ⟨hcolon, front, hfront⟩ := Text.afterLast?_eq_some_iff.mp hlast
      refine ⟨?_, by simpa using hcolon, String.ofList front, ?_⟩
      · simpa using hnonempty
      · rw [himage, Document.str.injEq, String.ext_iff]
        simp [hfront]
    · rintro ⟨hne, hcolon, name, hname⟩
      obtain rfl := Document.str.inj (himage.symm.trans hname)
      refine ⟨tag.toList, ?_, String.ofList_toList⟩
      rw [Option.filter_eq_some_iff, Text.afterLast?_eq_some_iff]
      exact ⟨⟨hcolon, name.toList, by simp⟩, by simpa using hne⟩
  case h_2 hother =>
    constructor
    · intro h
      cases h
    · rintro ⟨-, -, name, hname⟩
      exact absurd hname (hother _)

/-! ## Related processes -/

/-- Whether a process connects a container with an instance: it is the reported process, a child of
it, or an ancestor of it above the first process. -/
def Forest.Related (f : Forest) (representative pid : Pid) : Prop :=
  pid = representative ∨ f.HasChild representative pid ∨
    Relation.TransGen f.RunsUnder representative pid

section Related

variable {f : Forest} {representative pid : Pid}

theorem mem_childrenOf_iff (hf : f.Linked) :
    pid ∈ (f.childrenOf representative).map (·.pid) ↔ f.HasChild representative pid := by
  rw [Forest.childrenOf, List.mem_map]
  -- A representative without a node has no children.
  cases hnode : f.get? representative with
  | none => simp [Forest.HasChild, hnode]
  | some node =>
    simp only [List.mem_filterMap, List.mem_filter, bne_iff_ne]
    constructor
    · rintro ⟨child, ⟨q, ⟨hq, -⟩, hget⟩, rfl⟩
      rw [Forest.pid_of_get? hget]
      exact ⟨node, hnode, hq⟩
    · intro hchild
      -- A child has a node, and no process is its own child.
      obtain ⟨own, hown⟩ := Forest.contains_iff.mp (hf.contains_of_hasChild hchild)
      have hne : pid ≠ representative := (hf.hasChild_iff.mp hchild).2
      obtain ⟨same, hsame, hmem⟩ := hchild
      obtain rfl : same = node := Option.some.inj (hsame.symm.trans hnode)
      exact ⟨own, ⟨pid, ⟨hmem, hne⟩, hown⟩, Forest.pid_of_get? hown⟩

/-- Which processes connect a container with an instance. -/
theorem mem_relatedPids_iff (hf : f.Linked) :
    pid ∈ relatedPids f representative ↔ f.Related representative pid := by
  rw [relatedPids, List.mem_append, List.mem_cons, mem_childrenOf_iff hf,
    Forest.mem_ancestors_iff, Forest.Related]
  by_cases hsame : pid = representative
  · simp [hsame]
  · simp [hsame]

end Related

/-! ## Ports of several processes -/

section Ports

variable {f : Forest} {port : Nat}

/-- The ports of an instance are those of its nodes, collected one after the other. -/
theorem portsOf_eq (f : Forest) (seed : Seed) :
    portsOf f seed = ((claimedNodes f seed).flatMap (·.ports)).foldl
      (fun ports port => ProcessNode.insertPort port ports) [] := by
  rw [List.foldl_flatMap]
  rfl

theorem ascending_portsOf (f : Forest) (seed : Seed) : (portsOf f seed).Pairwise (· < ·) := by
  rw [portsOf_eq]
  exact ProcessNode.ascending_foldl_insertPort List.Pairwise.nil _

/-- The ports of an instance are those of the processes that it claims. -/
theorem mem_portsOf {seed : Seed} :
    port ∈ portsOf f seed ↔ ∃ node ∈ claimedNodes f seed, port ∈ node.ports := by
  rw [portsOf_eq, ProcessNode.mem_foldl_insertPort, List.mem_flatMap]
  simp

/-- A container adds the ports of the related processes that have nodes. -/
theorem ports_attachContainer (f : Forest) (container : Document) (i : Instance) :
    (attachContainer f container i).ports =
      (((relatedPids f i.seed.representative).filterMap f.get?).flatMap (·.ports)).foldl
        (fun ports port => ProcessNode.insertPort port ports) i.ports := by
  rw [List.foldl_flatMap, List.foldl_filterMap, attachContainer]
  dsimp only
  congr 1
  funext ports pid
  cases f.get? pid <;> rfl

/-- A container brings the ports of all related processes, not only those of its own. -/
theorem mem_ports_attachContainer {container : Document} {i : Instance} :
    port ∈ (attachContainer f container i).ports ↔
      port ∈ i.ports ∨ ∃ pid ∈ relatedPids f i.seed.representative,
        ∃ node, f.get? pid = some node ∧ port ∈ node.ports := by
  rw [ports_attachContainer, ProcessNode.mem_foldl_insertPort]
  apply or_congr_right
  simp only [List.mem_flatMap, List.mem_filterMap]
  constructor
  · rintro ⟨node, ⟨pid, hpid, hnode⟩, hport⟩
    exact ⟨pid, hpid, node, hnode, hport⟩
  · rintro ⟨pid, hpid, node, hnode, hport⟩
    exact ⟨node, ⟨pid, hpid, hnode⟩, hport⟩

end Ports

/-! ## What an instance gets -/

/-- An instance with containers, one after the other. -/
def Instance.equip (f : Forest) (i : Instance) (containers : List Document) : Instance :=
  containers.foldl (fun i container => attachContainer f container i) i

namespace Instance

variable {f : Forest} {i : Instance} {containers : List Document}

/-- Containers change the container and the ports of an instance, and nothing else. -/
theorem equip_keeps (f : Forest) (i : Instance) (containers : List Document) :
    (i.equip f containers).seed = i.seed ∧ (i.equip f containers).process = i.process ∧
      (i.equip f containers).bindings = i.bindings ∧
      (i.equip f containers).packages = i.packages ∧
      (i.equip f containers).versions = i.versions := by
  induction containers generalizing i with
  | nil => exact ⟨rfl, rfl, rfl, rfl, rfl⟩
  | cons container rest ih => exact ih (attachContainer f container i)

/-- The last container counts. -/
theorem docker_equip (hnone : i.docker = none) :
    (i.equip f containers).docker = containers.getLast?.map .ofContainer := by
  rcases List.eq_nil_or_concat containers with rfl | ⟨before, last, rfl⟩
  · exact hnone
  · rw [equip, List.concat_eq_append, List.foldl_append, List.getLast?_concat]
    rfl

/-- Every container brings the ports of all related processes, so a second one brings nothing. -/
theorem mem_ports_equip {port : Nat} :
    port ∈ (i.equip f containers).ports ↔
      port ∈ i.ports ∨ containers ≠ [] ∧ ∃ pid ∈ relatedPids f i.seed.representative,
        ∃ node, f.get? pid = some node ∧ port ∈ node.ports := by
  induction containers generalizing i with
  | nil => simp [equip]
  | cons container rest ih =>
    -- The seed stays, and with it the processes that are related.
    have hseed : (attachContainer f container i).seed = i.seed := rfl
    have hstep : i.equip f (container :: rest) = (attachContainer f container i).equip f rest := rfl
    rw [hstep, ih, mem_ports_attachContainer, hseed]
    simp only [ne_eq, List.cons_ne_nil, not_false_eq_true, true_and]
    constructor
    · rintro (hports | ⟨-, hrelated⟩)
      · exact hports
      · exact Or.inr hrelated
    · exact Or.inl

theorem ascending_ports_equip (h : i.ports.Pairwise (· < ·)) (containers : List Document) :
    (i.equip f containers).ports.Pairwise (· < ·) := by
  induction containers generalizing i with
  | nil => exact h
  | cons container rest ih =>
    have hfirst : (attachContainer f container i).ports.Pairwise (· < ·) := by
      rw [ports_attachContainer]
      exact ProcessNode.ascending_foldl_insertPort h _
    exact ih hfirst

end Instance

/-! ## Where a container goes -/

/-- The place of the first instance that a process connects with a container. -/
def firstRelated? (f : Forest) (seeds : List Seed) (pid : Pid) : Option Nat :=
  seeds.findIdx? fun seed => (relatedPids f seed.representative).contains pid

/-- The place of the instance that gets a container, if the container runs and any does. -/
def ownerOf? (f : Forest) (seeds : List Seed) (container : Document) : Option Nat :=
  (Container.pid? container).bind (firstRelated? f seeds)

section Attribution

variable {f : Forest} {instances : List Instance} {k : Nat}

theorem getElem?_attributeContainer (f : Forest) (container : Document) (pid : Pid)
    (instances : List Instance) (k : Nat) :
    (attributeContainer f container pid instances)[k]? = instances[k]?.map fun i =>
      if firstRelated? f (instances.map (·.seed)) pid = some k then attachContainer f container i
      else i := by
  -- By induction on the instances, for every place: behind the first instance all places are one
  -- less.
  induction instances generalizing k with
  | nil => simp [attributeContainer]
  | cons i rest ih =>
    have hplace : firstRelated? f ((i :: rest).map (·.seed)) pid =
        if (relatedPids f i.seed.representative).contains pid then some 0
        else (firstRelated? f (rest.map (·.seed)) pid).map (· + 1) := List.findIdx?_cons
    rw [attributeContainer, hplace]
    by_cases hrelated : (relatedPids f i.seed.representative).contains pid = true
    · -- The first instance gets the container, and the search ends there.
      rw [if_pos hrelated, if_pos hrelated]
      cases k <;> simp
    · rw [if_neg hrelated, if_neg hrelated]
      cases k with
      | zero => simp
      | succ k => simp [ih]

/-- Instances keep their seeds and their places. -/
theorem seeds_attributeContainer (f : Forest) (container : Document) (pid : Pid)
    (instances : List Instance) :
    (attributeContainer f container pid instances).map (·.seed) = instances.map (·.seed) := by
  apply List.ext_getElem?
  intro k
  rw [List.getElem?_map, getElem?_attributeContainer, List.getElem?_map, Option.map_map]
  congr 1
  funext i
  rw [Function.comp_apply]
  split <;> rfl

/-- An instance gets the containers that go to its place, in their order. -/
theorem getElem?_attributeContainers (f : Forest) (containers : List Document)
    (instances : List Instance) (k : Nat) :
    (attributeContainers f containers instances)[k]? = instances[k]?.map fun i =>
      i.equip f (containers.filter fun container =>
        ownerOf? f (instances.map (·.seed)) container == some k) := by
  -- The instances change with every container, and so does what a place holds; the seeds stay, and
  -- with them the owners of the containers that follow.
  induction containers generalizing instances with
  | nil => simp [attributeContainers, Instance.equip]
  | cons container rest ih =>
    cases hpid : Container.pid? container with
    | none =>
      have hstep : attributeContainers f (container :: rest) instances =
          attributeContainers f rest instances := by
        rw [attributeContainers, List.foldl_cons, hpid]
        rfl
      -- A container without a process goes nowhere.
      have hnowhere : ownerOf? f (instances.map (·.seed)) container = none := by
        rw [ownerOf?, hpid]
        rfl
      rw [hstep, ih, List.filter_cons, hnowhere]
      rfl
    | some pid =>
      have hstep : attributeContainers f (container :: rest) instances =
          attributeContainers f rest (attributeContainer f container pid instances) := by
        rw [attributeContainers, List.foldl_cons, hpid]
        rfl
      have howner : ownerOf? f (instances.map (·.seed)) container =
          firstRelated? f (instances.map (·.seed)) pid := by
        rw [ownerOf?, hpid]
        rfl
      rw [hstep, ih, seeds_attributeContainer, getElem?_attributeContainer, Option.map_map,
        List.filter_cons, howner]
      congr 1
      funext i
      -- Here or elsewhere, the container is the first of those that go to the place, or none of
      -- them.
      by_cases hhere : firstRelated? f (instances.map (·.seed)) pid = some k
      · simp [hhere, Instance.equip]
      · simp [hhere]

/-- A container goes to the first instance that its process is related with. -/
theorem ownerOf?_eq_some_iff (hf : f.Linked) {seeds : List Seed} {container : Document} :
    ownerOf? f seeds container = some k ↔
      ∃ pid seed, Container.pid? container = some pid ∧ seeds[k]? = some seed ∧
        f.Related seed.representative pid ∧
        ∀ j other, j < k → seeds[j]? = some other → ¬ f.Related other.representative pid := by
  have hmem : ∀ seed : Seed, ∀ pid, (relatedPids f seed.representative).contains pid = true ↔
      f.Related seed.representative pid := by
    intro seed pid
    rw [List.contains_iff_mem, mem_relatedPids_iff hf]
  rw [ownerOf?, Option.bind_eq_some_iff]
  simp only [firstRelated?, List.findIdx?_eq_some_iff_getElem, hmem]
  constructor
  · rintro ⟨pid, hpid, hlt, hrelated, hbefore⟩
    refine ⟨pid, seeds[k], hpid, List.getElem?_eq_getElem hlt, hrelated, ?_⟩
    intro j other hj hother
    obtain ⟨hlength, rfl⟩ := List.getElem?_eq_some_iff.mp hother
    exact hbefore j hj
  · rintro ⟨pid, seed, hpid, hseed, hrelated, hbefore⟩
    obtain ⟨hlt, rfl⟩ := List.getElem?_eq_some_iff.mp hseed
    refine ⟨pid, hpid, hlt, hrelated, ?_⟩
    intro j hj
    exact hbefore j _ hj (List.getElem?_eq_getElem (Nat.lt_trans hj hlt))

/-- The container of process 5 goes to the first of two instances, which runs under that process,
and not to the one that is that process. -/
example :
    ownerOf?
      (Forest.build [{ pid := ⟨"1"⟩ }, { pid := ⟨"5"⟩, ppid := ⟨"1"⟩ },
        { pid := ⟨"7"⟩, ppid := ⟨"5"⟩ }])
      [⟨"worker", ⟨"7"⟩, ⟨"7"⟩, [⟨"7"⟩]⟩, ⟨"server", ⟨"5"⟩, ⟨"5"⟩, [⟨"5"⟩]⟩]
      (.ofFields [("State", .ofFields [("Pid", .int 5)])]) = some 0 := by
  decide

end Attribution

/-! ## Instances of a pass -/

section Enrich

variable {f : Forest} {inventory : Inventory} {s : Signature} {seeds : List Seed}
  {instances : List Instance}

/-- Nothing but the pattern of packages can keep instances from being made. -/
theorem enrich_eq_error_iff {err : Signature.Error} :
    enrich f inventory s seeds = .error err ↔ s.pkgMatcher = .error err := by
  rw [enrich, matchingPackages]
  cases hmatcher : s.pkgMatcher with
  | error other => simp [bind, Except.bind]
  | ok m? => cases m? <;> simp [bind, Except.bind, pure, Except.pure]

/-- The instances of a pass, place by place. -/
theorem getElem?_enrich (h : enrich f inventory s seeds = .ok instances) :
    ∃ packages, matchingPackages inventory.packages s = .ok packages ∧
      ∀ k, instances[k]? = seeds[k]?.map fun seed =>
        addImageVersion ((Instance.ofSeed f packages seed).equip f
          (inventory.containers.filter fun container => ownerOf? f seeds container == some k)) := by
  rw [enrich] at h
  cases hpackages : matchingPackages inventory.packages s with
  | error err => simp [hpackages, bind, Except.bind] at h
  | ok packages =>
    simp only [hpackages, bind, Except.bind, pure, Except.pure, Except.ok.injEq] at h
    refine ⟨packages, rfl, fun k => ?_⟩
    have hseeds : (seeds.map (Instance.ofSeed f packages)).map (·.seed) = seeds := by
      rw [List.map_map]
      exact List.map_id seeds
    rw [← h, List.getElem?_map, getElem?_attributeContainers, hseeds, List.getElem?_map,
      Option.map_map, Option.map_map]
    rfl

/-- A tag of the image can change the versions, and nothing else. -/
theorem addImageVersion_keeps (i : Instance) :
    (addImageVersion i).seed = i.seed ∧ (addImageVersion i).process = i.process ∧
      (addImageVersion i).ports = i.ports ∧ (addImageVersion i).bindings = i.bindings ∧
      (addImageVersion i).packages = i.packages ∧ (addImageVersion i).docker = i.docker := by
  rw [addImageVersion]
  split <;> exact ⟨rfl, rfl, rfl, rfl, rfl, rfl⟩

/-- Seeds become instances in their order, one each. -/
theorem seeds_enrich (h : enrich f inventory s seeds = .ok instances) :
    instances.map (·.seed) = seeds := by
  obtain ⟨packages, -, hplaces⟩ := getElem?_enrich h
  apply List.ext_getElem?
  intro k
  rw [List.getElem?_map, hplaces, Option.map_map]
  cases hseed : seeds[k]? with
  | none => rfl
  | some seed =>
    have hequip := ((Instance.ofSeed f packages seed).equip_keeps f
      (inventory.containers.filter fun container => ownerOf? f seeds container == some k)).1
    exact congrArg some ((addImageVersion_keeps _).1.trans hequip)

/-- No seed is lost, and none is added. -/
theorem length_enrich (h : enrich f inventory s seeds = .ok instances) :
    instances.length = seeds.length := by
  rw [← seeds_enrich h, List.length_map]

/-- A tag of the image becomes a version behind the others. -/
theorem versions_addImageVersion (i : Instance) :
    (∀ summary tag, i.docker = some summary → summary.HasTag tag →
      (addImageVersion i).versions = i.versions ++ [⟨"docker", tag⟩]) ∧
    ((∀ summary tag, i.docker = some summary → ¬ summary.HasTag tag) →
      (addImageVersion i).versions = i.versions) := by
  rw [addImageVersion]
  -- An instance without a container has no image.
  cases hdocker : i.docker with
  | none => simp
  | some summary =>
    simp only [Option.bind_some, Option.some.injEq, ← DockerSummary.imageTag?_eq_some_iff]
    constructor
    · rintro same tag rfl htag
      rw [htag]
    · intro hno
      have hnone : summary.imageTag? = none :=
        Option.eq_none_iff_forall_ne_some.mpr fun tag => hno summary tag rfl
      rw [hnone]

end Enrich

/-! ## What an instance gains -/

/-- How an instance looks after containers were attached, compared with how it looked first. -/
structure Equipped (f : Forest) (containers : List Document) (before after : Instance) : Prop where
  /-- Of several containers the last one counts. -/
  docker_eq : after.docker = containers.getLast?.map .ofContainer
  ports_ascending : after.ports.Pairwise (· < ·)
  ports_eq : containers = [] → after.ports = before.ports
  /-- A container brings the ports of all related processes. -/
  mem_ports_iff : containers ≠ [] → ∀ port, port ∈ after.ports ↔ port ∈ before.ports ∨
    ∃ pid node, f.Related before.seed.representative pid ∧ f.get? pid = some node ∧
      port ∈ node.ports
  versions_of_tag : ∀ summary tag, after.docker = some summary → summary.HasTag tag →
    after.versions = before.versions ++ [⟨"docker", tag⟩]
  versions_of_no_tag : (∀ summary tag, after.docker = some summary → ¬ summary.HasTag tag) →
    after.versions = before.versions
  rest_eq : after.seed = before.seed ∧ after.process = before.process ∧
    after.bindings = before.bindings ∧ after.packages = before.packages

theorem equipped_equip {f : Forest} (hf : f.Linked) {i : Instance} (hnone : i.docker = none)
    (hports : i.ports.Pairwise (· < ·)) (containers : List Document) :
    Equipped f containers i (addImageVersion (i.equip f containers)) := by
  obtain ⟨hseed, hprocess, hbindings, hpackages, hversions⟩ := i.equip_keeps f containers
  obtain ⟨hseed', hprocess', hports', hbindings', hpackages', hdocker'⟩ :=
    addImageVersion_keeps (i.equip f containers)
  obtain ⟨htagged, huntagged⟩ := versions_addImageVersion (i.equip f containers)
  rw [← hdocker', hversions] at htagged huntagged
  -- What containers change is told by `equip`, what the tag changes by `addImageVersion`; a field
  -- that both keep is chained through both.
  refine ⟨hdocker'.trans (Instance.docker_equip hnone), ?_, ?_, ?_, htagged, huntagged, ?_⟩
  · rw [hports']
    exact Instance.ascending_ports_equip hports containers
  · rintro rfl
    exact hports'
  · intro hsome port
    rw [hports', Instance.mem_ports_equip, and_iff_right hsome]
    simp only [mem_relatedPids_iff hf, exists_and_left]
  · exact ⟨hseed'.trans hseed, hprocess'.trans hprocess, hbindings'.trans hbindings,
      hpackages'.trans hpackages⟩

/-- What an instance gains is told by the containers that go to its place. -/
theorem equipped_enrich {f : Forest} (hf : f.Linked) {inventory : Inventory} {s : Signature}
    {seeds : List Seed} {instances : List Instance}
    (h : enrich f inventory s seeds = .ok instances) :
    ∃ packages, matchingPackages inventory.packages s = .ok packages ∧
      ∀ (k : Nat) seed after, seeds[k]? = some seed → instances[k]? = some after →
        Equipped f
          (inventory.containers.filter fun container => ownerOf? f seeds container == some k)
          (Instance.ofSeed f packages seed) after := by
  obtain ⟨packages, hpackages, hplaces⟩ := getElem?_enrich h
  refine ⟨packages, hpackages, ?_⟩
  intro k seed after hseed hafter
  rw [hplaces, hseed, Option.map_some] at hafter
  obtain rfl := Option.some.inj hafter
  exact equipped_equip hf rfl (ascending_portsOf f seed) _

/-- **Who gets a container, and what an instance gains**: a container that runs goes to the first
instance of a pass that it is related with, to no other one, and to none if there is none. An
instance has the last container that went to it, the ports of its related processes if any did, and
a version for the tag of the image; nothing else of it changes. Nothing but the pattern of packages
can keep the instances from being made. -/
theorem containers_attributed (processes : List ProcessRecord) (records : List PortRecord)
    (inventory : Inventory) (s : Signature) (seeds : List Seed) :
    let f := (Forest.build processes).attachPorts records
    (∀ container (k : Nat), ownerOf? f seeds container = some k ↔
      ∃ pid seed, Container.pid? container = some pid ∧ seeds[k]? = some seed ∧
        f.Related seed.representative pid ∧
        ∀ j other, j < k → seeds[j]? = some other → ¬ f.Related other.representative pid) ∧
    (∀ err, enrich f inventory s seeds = .error err ↔ s.pkgMatcher = .error err) ∧
    ∀ instances, enrich f inventory s seeds = .ok instances →
      instances.length = seeds.length ∧
      ∃ packages, matchingPackages inventory.packages s = .ok packages ∧
        ∀ (k : Nat) seed after, seeds[k]? = some seed → instances[k]? = some after →
          Equipped f
            (inventory.containers.filter fun container => ownerOf? f seeds container == some k)
            (Instance.ofSeed f packages seed) after := by
  intro f
  have hf : f.Linked := Forest.attachPorts_linked records (Forest.build_linked processes)
  refine ⟨fun _ _ => ownerOf?_eq_some_iff hf, fun _ => enrich_eq_error_iff, ?_⟩
  intro instances h
  exact ⟨length_enrich h, equipped_enrich hf h⟩

end SoftwareCensus
